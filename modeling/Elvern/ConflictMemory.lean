/-
What the store of shared output remembers of a conflict (`route2_shared_output_store.py`).

* `Document.knows`, `Document.Sound` — the indexes that a document has evidence of, and a document
  that says so;
* `Rewritten`, `call_rewritten` — a call leaves a document alone, or writes one that knows what it
  knew;
* `SegmentMediaCall.raises` — an exception of the segment writer that its loop does not handle;
* `conflict_remembered` — a conflict stays in its document and in the merged evidence, and the
  writers report it but for that exception.
-/
import Elvern.SharedStoreFiles
import Elvern.Runs

open ConflictEvidence SharedOutput Runs

namespace SharedStore

/-! ### What a document knows -/

/-- There is evidence of a conflict on the index. -/
def Document.knows (document : Document) (n : ℕ) : Prop :=
  ∃ raw ∈ document.raws, raw.index? = some n

/-- The index is in `conflict_indexes`. -/
def Document.lists (document : Document) (n : ℕ) : Prop :=
  ∃ raw ∈ document.conflictIndexes, raw.index? = some n

/-- The document lists what it knows, says that there is a conflict, and is not served. -/
structure Document.Sound (document : Document) : Prop where
  lists : ∀ n, document.knows n → document.lists n
  mixed : document.mixedWriterConflict = true ↔ ∃ n, document.knows n
  serving : document.servingAllowed = false

theorem Document.lists.knows {document : Document} {n : ℕ} (h : document.lists n) :
    document.knows n := by
  obtain ⟨raw, hraw, hn⟩ := h
  exact ⟨raw, List.mem_append_right _ hraw, hn⟩

/-- The three documents of a directory. -/
inductive Part
  | metadata
  | ranges
  | segments

def Directory.document (d : Directory) : Part → Option Document
  | .metadata => d.metadata
  | .ranges => d.ranges
  | .segments => d.segments.map SegmentsDocument.document

section Fields

variable {records : List ConflictRecord} {payload : Document} {present : Bool}
  {timestamp now : Timestamp} {d : Directory} {n : ℕ}

theorem mem_sortedIndexes : n ∈ sortedIndexes records ↔ n ∈ records.map ConflictRecord.index := by
  rw [sortedIndexes, List.mem_mergeSort, List.mem_dedup]

/-- Records merged with nothing keep their indexes. -/
theorem mem_merge_raw {updatedAt : Option String} :
    n ∈ (mergeConflictRecords (records.map ConflictRecord.raw) updatedAt now).map
      ConflictRecord.index ↔ n ∈ records.map ConflictRecord.index := by
  rw [mem_mergeConflictRecords]
  simp [List.mem_map]

theorem mem_servability : n ∈ (servabilityFields present records now).conflictIndexes ↔
    n ∈ records.map ConflictRecord.index := by
  simp only [servabilityFields]
  rw [mem_sortedIndexes, mem_merge_raw]

theorem servability_mixed : (servabilityFields present records now).mixedWriterConflict = true ↔
    ∃ n, n ∈ records.map ConflictRecord.index := by
  have hmixed : (servabilityFields present records now).mixedWriterConflict =
      !(servabilityFields present records now).conflictIndexes.isEmpty := rfl
  rw [hmixed, Bool.not_eq_true', ← Bool.not_eq_true, List.isEmpty_iff,
    List.eq_nil_iff_forall_not_mem, not_forall_not]
  exact exists_congr fun n => mem_servability

/-- A payload knows what it knew, and the records that are put into it. -/
theorem applied_knows : (applyServabilityFields payload present records now).knows n ↔
    payload.knows n ∨ n ∈ records.map ConflictRecord.index := by
  have hexisting : n ∈ (mergeConflictRecords
      (payload.raws ++ records.map ConflictRecord.raw) none now).map ConflictRecord.index ↔
      payload.knows n ∨ n ∈ records.map ConflictRecord.index := by
    rw [mem_mergeConflictRecords]
    simp only [List.mem_append, or_and_right, exists_or, Document.knows]
    refine or_congr_right ?_
    simp [List.mem_map]
  rw [← hexisting, ← @mem_servability _ present now]
  simp only [Document.knows, Document.raws, applyServabilityFields, List.mem_append, or_and_right,
    exists_or]
  constructor
  · rintro (⟨raw, hraw, hn⟩ | ⟨raw, hraw, hn⟩)
    · obtain ⟨r, hr, rfl⟩ := List.mem_map.1 hraw
      cases hn
      rw [mem_servability]
      have hmem : r.index ∈ (mergeConflictRecords _ none now).map ConflictRecord.index :=
        List.mem_map_of_mem hr
      exact mem_merge_raw.1 hmem
    · obtain ⟨i, hi, rfl⟩ := List.mem_map.1 hraw
      cases hn
      exact hi
  · intro hn
    exact Or.inr ⟨rawIndex n, List.mem_map_of_mem hn, rfl⟩

theorem applied_sound : (applyServabilityFields payload present records now).Sound where
  lists n hn := by
    have hlist : ∀ m, (applyServabilityFields payload present records now).lists m ↔
        m ∈ (servabilityFields present (mergeConflictRecords
          (payload.raws ++ records.map ConflictRecord.raw) none now) now).conflictIndexes := by
      intro m
      simp only [Document.lists, applyServabilityFields, List.mem_map]
      constructor
      · rintro ⟨raw, ⟨i, hi, rfl⟩, hm⟩
        cases hm
        exact hi
      · intro hm
        exact ⟨rawIndex m, ⟨m, hm, rfl⟩, rfl⟩
    rw [hlist, mem_servability, mem_mergeConflictRecords]
    rcases applied_knows.1 hn with ⟨raw, hraw, hi⟩ | hmem
    · exact ⟨raw, List.mem_append_left _ hraw, hi⟩
    · obtain ⟨r, hr, rfl⟩ := List.mem_map.1 hmem
      exact ⟨r.raw, List.mem_append_right _ (List.mem_map_of_mem hr), rfl⟩
  mixed := by
    have hmixed : (applyServabilityFields payload present records now).mixedWriterConflict =
        (servabilityFields present (mergeConflictRecords
          (payload.raws ++ records.map ConflictRecord.raw) none now) now).mixedWriterConflict := rfl
    rw [hmixed, servability_mixed]
    refine exists_congr fun n => ?_
    rw [applied_knows, mem_mergeConflictRecords]
    simp only [List.mem_append, or_and_right, exists_or, Document.knows]
    refine or_congr_right ?_
    simp [List.mem_map]
  serving := rfl

theorem mem_documents {document : Document} :
    document ∈ d.documents ↔ ∃ part, document ∈ d.document part := by
  simp only [Directory.documents, List.mem_append, Option.mem_toList]
  constructor
  · rintro ((h | h) | h)
    · exact ⟨.metadata, h⟩
    · exact ⟨.ranges, h⟩
    · exact ⟨.segments, h⟩
  · rintro ⟨part, h⟩
    cases part with
    | metadata => exact Or.inl (Or.inl h)
    | ranges => exact Or.inl (Or.inr h)
    | segments => exact Or.inr h

theorem mem_documents_raws : (∃ raw ∈ d.documents.flatMap Document.raws, raw.index? = some n) ↔
    ∃ part, ∃ document ∈ d.document part, document.knows n := by
  simp only [List.mem_flatMap]
  constructor
  · rintro ⟨raw, ⟨document, hdocument, hraw⟩, hn⟩
    obtain ⟨part, hpart⟩ := mem_documents.1 hdocument
    exact ⟨part, document, hpart, raw, hraw, hn⟩
  · rintro ⟨part, document, hpart, raw, hraw, hn⟩
    exact ⟨raw, ⟨document, mem_documents.2 ⟨part, hpart⟩, hraw⟩, hn⟩

/-- The merged evidence knows what any document knows. -/
theorem mem_mergedConflicts : n ∈ (d.mergedConflicts timestamp now).map ConflictRecord.index ↔
    ∃ part, ∃ document ∈ d.document part, document.knows n := by
  rw [Directory.mergedConflicts, mem_mergeConflictRecords, mem_documents_raws]

end Fields

/-! ### What a call does to a document -/

/-- A document is left alone, or a sound one is written that knows what it knew. -/
def Rewritten (old new : Option Document) : Prop :=
  new = old ∨ ∃ document, new = some document ∧ document.Sound ∧
    ∀ was ∈ old, ∀ n, was.knows n → document.knows n

section Calls

variable {sha256 : Bytes → String} {d d' : Directory} {n : ℕ}

/-- Merged evidence is put into whatever is written. -/
theorem rewritten_of_conflicts {old : Option Document} {payload : Document} {present : Bool}
    {conflicts : List ConflictRecord} {now : Timestamp}
    (h : ∀ was ∈ old, ∀ n, was.knows n → n ∈ conflicts.map ConflictRecord.index) :
    Rewritten old (some (applyServabilityFields payload present conflicts now)) :=
  Or.inr ⟨_, rfl, applied_sound, fun was hwas n hn => applied_knows.2 (Or.inr (h was hwas n hn))⟩

theorem knows_of_merged (part : Part) {timestamp now : Timestamp} :
    ∀ was ∈ d.document part, ∀ n, was.knows n →
      n ∈ (d.mergedConflicts timestamp now).map ConflictRecord.index :=
  fun was hwas _ hn => mem_mergedConflicts.2 ⟨part, was, hwas, hn⟩

theorem writeStoreMetadata_rewritten (call : StoreMetadataCall) (part : Part) :
    Rewritten (d.document part) ((d.writeStoreMetadata call).1.document part) := by
  rw [Directory.writeStoreMetadata]
  dsimp only
  split_ifs
  · exact Or.inl rfl
  · exact Or.inl rfl
  · exact Or.inl rfl
  · cases part <;> exact Or.inl rfl
  · cases part with
    | metadata => exact rewritten_of_conflicts (knows_of_merged .metadata)
    | ranges => exact Or.inl rfl
    | segments => exact Or.inl rfl
  · cases part with
    | metadata => exact rewritten_of_conflicts (knows_of_merged .metadata)
    | ranges => exact rewritten_of_conflicts (knows_of_merged .ranges)
    | segments => exact Or.inl rfl

/-- The init writer reads the metadata alone, and keeps their evidence. -/
theorem writeInitMedia_rewritten (call : InitMediaCall) (part : Part) :
    Rewritten (d.document part) ((d.writeInitMedia call).document part) := by
  rw [Directory.writeInitMedia]
  split_ifs
  · exact Or.inl rfl
  · cases part <;> exact Or.inl rfl
  · cases part <;> exact Or.inl rfl
  · cases part with
    | metadata =>
      cases hmetadata : d.metadata with
      | none =>
        left
        simp only [Directory.document, hmetadata, Option.map_none]
      | some metadata =>
        right
        refine ⟨applyServabilityFields { metadata with mediaBytesPresent := false }
          false [] call.now,
          by simp only [Directory.document, Option.map_some], applied_sound, ?_⟩
        intro was hwas n hn
        simp only [Directory.document, hmetadata, Option.mem_some_iff] at hwas
        subst hwas
        exact applied_knows.2 (Or.inl hn)
    | ranges => exact Or.inl rfl
    | segments => exact Or.inl rfl

theorem updateSegmentMetadata_rewritten (call : SegmentMediaCall) (s : Writing) (part : Part) :
    Rewritten (d.document part) ((d.updateSegmentMetadata call s).1.document part) := by
  have hconflicts : ∀ was ∈ d.document part, ∀ n, was.knows n → n ∈ (mergeConflictRecords
      (d.documents.flatMap Document.raws ++ s.conflicts.map ConflictRecord.raw)
      (some call.timestamp.1) call.now).map ConflictRecord.index := by
    intro was hwas n hn
    obtain ⟨raw, hraw, hindex⟩ := mem_documents_raws.2 ⟨part, was, hwas, hn⟩
    exact mem_mergeConflictRecords.2 ⟨raw, List.mem_append_left _ hraw, hindex⟩
  rw [Directory.updateSegmentMetadata]
  dsimp only
  split_ifs
  · cases part <;> exact Or.inl rfl
  · cases part with
    | metadata => exact Or.inl rfl
    | ranges => exact Or.inl rfl
    | segments => exact rewritten_of_conflicts hconflicts
  · cases part with
    | metadata => exact Or.inl rfl
    | ranges => exact rewritten_of_conflicts hconflicts
    | segments => exact rewritten_of_conflicts hconflicts
  · cases part with
    | metadata => exact rewritten_of_conflicts hconflicts
    | ranges => exact rewritten_of_conflicts hconflicts
    | segments => exact rewritten_of_conflicts hconflicts

theorem writeSegmentMedia_rewritten (call : SegmentMediaCall) (part : Part) :
    Rewritten (d.document part) ((d.writeSegmentMedia sha256 call).1.document part) := by
  have hupdated : ∀ s raised d', d.updateSegmentMetadata call s = (d', raised) →
      Rewritten (d.document part) (d'.document part) := by
    intro s raised d' hupdate
    have hrewritten := updateSegmentMetadata_rewritten (d := d) call s part
    rw [hupdate] at hrewritten
    exact hrewritten
  have hcourse := d.segmentCourse sha256 call
  generalize d.writeSegmentMedia sha256 call = result at hcourse ⊢
  cases hcourse with
  | unread => exact Or.inl rfl
  | blocked => exact Or.inl rfl
  | undirected => exact Or.inl rfl
  | unplanned => exact Or.inl rfl
  | raised => cases part <;> exact Or.inl rfl
  | empty => cases part <;> exact Or.inl rfl
  | unwritten _ s _ d' hupdate => exact hupdated s true d' hupdate
  | written _ s _ d' hupdate => exact hupdated s false d' hupdate

/-- **A call**, however it ends, leaves each document alone or keeps what it knew. -/
theorem call_rewritten (call : Call) (part : Part) :
    Rewritten (d.document part) ((d.call sha256 call).1.document part) := by
  cases call with
  | storeMetadata call => exact writeStoreMetadata_rewritten call part
  | initMedia call => exact writeInitMedia_rewritten call part
  | segmentMedia call => exact writeSegmentMedia_rewritten call part

theorem Rewritten.sound {old new : Option Document} (h : Rewritten old new)
    (hold : ∀ document ∈ old, document.Sound) : ∀ document ∈ new, document.Sound := by
  rcases h with rfl | ⟨document, rfl, hsound, -⟩
  · exact hold
  · intro other hother
    cases hother
    exact hsound

theorem Rewritten.knows {old new : Option Document} (h : Rewritten old new)
    (hold : ∃ document ∈ old, document.knows n) : ∃ document ∈ new, document.knows n := by
  obtain ⟨was, hwas, hn⟩ := hold
  rcases h with rfl | ⟨document, rfl, -, hknows⟩
  · exact ⟨was, hwas, hn⟩
  · exact ⟨document, rfl, hknows was hwas n hn⟩

/-- After every run the documents are sound, if they were so first. -/
theorem reach_sound (h : Reach (Directory.step sha256) (fun _ _ => True) d d')
    (hd : ∀ part, ∀ document ∈ d.document part, document.Sound) :
    ∀ part, ∀ document ∈ d'.document part, document.Sound := by
  refine Reach.invariant (P := fun d => ∀ part, ∀ document ∈ d.document part,
    document.Sound) hd ?_ h
  intro s call s' _ hs _ hstep part
  cases hstep
  exact (call_rewritten call part).sound (hs part)

/-- After every run a document knows what it knew. -/
theorem reach_knows (h : Reach (Directory.step sha256) (fun _ _ => True) d d') {part : Part}
    (hd : ∃ document ∈ d.document part, document.knows n) :
    ∃ document ∈ d'.document part, document.knows n := by
  refine Reach.invariant (P := fun d => ∃ document ∈ d.document part, document.knows n) hd ?_ h
  intro s call s' _ hs _ hstep
  cases hstep
  exact (call_rewritten call part).knows hs

end Calls

/-! ### Reports -/

/-- The plan has no index, or a negative one: the exception leaves the loop. -/
def Plan.raises (plan : Plan) : Bool :=
  match plan.absoluteIndex with
  | none => true
  | some index => plan.sourceSegment.isSome && plan.hardBlockers.isEmpty && decide (index < 0)

/-- An exception comes to the handler around the whole body of the segment writer, behind the
reading of the documents: a directory or a document cannot be written, a plan has no index, or the
duration of a segment is not positive. -/
def SegmentMediaCall.raises (d : Directory) (call : SegmentMediaCall) : Bool :=
  !d.segmentsBlocked call &&
    (decide (call.failsAt = some .makeDirectories) ||
      !call.plans.isEmpty &&
        (call.plans.any Plan.raises || decide (call.segmentDurationSeconds ≤ 0) ||
          decide (call.failsAt ∈ [some .writeSegments, some .writeRanges, some .writeMetadata])))

/-- The call comes to read the documents of the store. -/
def Call.reachesStore : Call → Bool
  | .storeMetadata call => decide (call.failsAt ≠ some .readDocuments)
  | .initMedia _ => false
  | .segmentMedia call => call.checks.writerEnabled && decide (call.failsAt ≠ some .readDocuments)

/-- The exception of the segment writer that its loop does not handle. -/
def Call.raises (d : Directory) : Call → Bool
  | .segmentMedia call => call.raises d
  | _ => false

/-- The report speaks of the conflict. -/
def Servability.reports (report : Servability) (n : ℕ) : Prop :=
  n ∈ report.conflictIndexes ∧ report.mixedWriterConflict = true

section Reports

variable {sha256 : Bytes → String} {d : Directory} {n : ℕ} {timestamp now : Timestamp}

theorem reports_of_mem {present : Bool} {records : List ConflictRecord}
    (h : n ∈ records.map ConflictRecord.index) :
    (servabilityFields present records now).reports n :=
  ⟨mem_servability.2 h, servability_mixed.2 ⟨n, h⟩⟩

/-- A plan takes no conflict away. -/
theorem writePlan_conflicts (s : Writing) (plan : Plan) (index : ℕ) (staged : Bytes)
    (h : n ∈ s.conflicts.map ConflictRecord.index) :
    n ∈ (writePlan sha256 timestamp now s plan index staged).conflicts.map
        ConflictRecord.index := by
  obtain heq | ⟨final, -, -, heq⟩ | ⟨final, writtenAt, -, heq⟩ | ⟨-, records, -, heq⟩ :=
    writePlan_cases sha256 timestamp now s plan index staged
  · rw [heq]
    exact h
  · rw [heq]
    obtain ⟨r, hr, rfl⟩ := List.mem_map.1 h
    exact mem_mergeConflictRecords.2
      ⟨r.raw, List.mem_append_left _ (List.mem_map_of_mem hr), rfl⟩
  · rw [heq]
    exact h
  · rw [heq]
    exact h

theorem writePlans_conflicts {plans : List Plan} : ∀ {s : Writing},
    n ∈ s.conflicts.map ConflictRecord.index →
    n ∈ (writePlans sha256 timestamp now s plans).1.conflicts.map ConflictRecord.index := by
  induction plans with
  | nil =>
    intro s h
    exact h
  | cons plan rest ih =>
    intro s h
    rw [writePlans]
    split
    · exact h
    · split
      · exact ih h
      · split_ifs
        · exact ih h
        · exact h
        · exact ih (writePlan_conflicts s plan _ _ h)

/-- The loop is left with an exception if and only if a plan raises it. -/
theorem writePlans_raised {plans : List Plan} : ∀ {s : Writing},
    (writePlans sha256 timestamp now s plans).2 = plans.any Plan.raises := by
  induction plans with
  | nil =>
    intro s
    rfl
  | cons plan rest ih =>
    intro s
    rw [writePlans, List.any_cons, Plan.raises]
    cases plan.absoluteIndex with
    | none => rfl
    | some index =>
      cases plan.sourceSegment with
      | none => exact ih
      | some staged =>
        dsimp only
        cases plan.hardBlockers with
        | nil =>
          by_cases hneg : index < 0
          · simp [hneg]
          · simp [hneg, ih]
        | cons blocker blockers => simp [ih]

theorem updateSegmentMetadata_raised (call : SegmentMediaCall) (s : Writing) :
    (d.updateSegmentMetadata call s).2 = (decide (call.segmentDurationSeconds ≤ 0) ||
      decide (call.failsAt ∈ [some .writeSegments, some .writeRanges, some .writeMetadata])) := by
  rw [Directory.updateSegmentMetadata]
  dsimp only
  by_cases hduration : call.segmentDurationSeconds ≤ 0
  · simp [hduration]
  · simp only [hduration, false_or, decide_false, Bool.false_or]
    cases hfails : call.failsAt with
    | none => simp
    | some operation => cases operation <;> simp

theorem reads_of_reachesStore {call : SegmentMediaCall}
    (hreach : (Call.segmentMedia call).reachesStore = true) :
    ¬ (call.checks.writerEnabled = false ∨ call.failsAt = some .readDocuments) := by
  rw [Call.reachesStore, Bool.and_eq_true, decide_eq_true_eq] at hreach
  rintro (h | h)
  · rw [h] at hreach
    cases hreach.1
  · exact hreach.2 h

/-- What the segment writer reports of a conflict that is in the store. -/
theorem writeSegmentMedia_reports (call : SegmentMediaCall)
    (hreach : (Call.segmentMedia call).reachesStore = true)
    (hn : ∀ timestamp now, n ∈ (d.mergedConflicts timestamp now).map ConflictRecord.index) :
    (d.writeSegmentMedia sha256 call).2.reports n ↔ call.raises d = false := by
  have hunaware : ¬ (servabilityFields false [] call.now).reports n := by
    intro h
    have hmem := mem_servability.1 h.1
    cases hmem
  have hraised : (writePlans sha256 call.timestamp call.now (d.writing call) call.plans).2 =
      call.plans.any Plan.raises := writePlans_raised
  have hkept : n ∈ (writePlans sha256 call.timestamp call.now (d.writing call)
      call.plans).1.conflicts.map ConflictRecord.index := writePlans_conflicts (hn _ _)
  rw [SegmentMediaCall.raises]
  have hcourse := d.segmentCourse sha256 call
  generalize d.writeSegmentMedia sha256 call = result at hcourse ⊢
  cases hcourse with
  | unread h => exact absurd h (reads_of_reachesStore hreach)
  | blocked _ h =>
    rw [h]
    exact iff_of_true (reports_of_mem (hn _ _)) rfl
  | undirected _ hblocked h => exact iff_of_false hunaware (by simp [hblocked, h])
  | unplanned _ hblocked hdirectories h =>
    exact iff_of_true (reports_of_mem (hn _ _)) (by simp [hblocked, hdirectories, h])
  | raised hloops s h =>
    rw [h] at hraised
    refine iff_of_false hunaware ?_
    simp [hloops.unblocked, hloops.directories, hloops.planned, ← hraised]
  | empty hloops s h hnone =>
    rw [h, hnone.2] at hkept
    cases hkept
  | unwritten hloops s h d' hupdate =>
    have hfailed := updateSegmentMetadata_raised (d := d) call s
    rw [hupdate] at hfailed
    refine iff_of_false hunaware ?_
    rw [Bool.or_assoc, ← hfailed]
    simp [hloops.unblocked, hloops.planned]
  | written hloops s h d' hupdate =>
    have hfailed := updateSegmentMetadata_raised (d := d) call s
    rw [hupdate] at hfailed
    rw [h] at hraised hkept
    refine iff_of_true (reports_of_mem hkept) ?_
    rw [Bool.or_assoc, ← hfailed, ← hraised]
    simp [hloops.directories]

/-- What the writer of the metadata reports, however it ends. -/
theorem writeStoreMetadata_reports (call : StoreMetadataCall)
    (hreach : (Call.storeMetadata call).reachesStore = true)
    (hn : ∀ timestamp now, n ∈ (d.mergedConflicts timestamp now).map ConflictRecord.index) :
    (d.writeStoreMetadata call).2.reports n := by
  have hread : ¬ call.failsAt = some .readDocuments := of_decide_eq_true hreach
  rw [Directory.writeStoreMetadata]
  dsimp only
  rw [if_neg hread]
  split_ifs <;> exact reports_of_mem (hn _ _)

end Reports

/-- A conflict that a document lists stays listed there, whatever calls come and however they end:
it is in the merged evidence, the document says that writers were mixed, and nothing is served. A
later write that reaches the store reports it if and only if no exception comes to the outer handler
of the segment writer. -/
theorem conflict_remembered (sha256 : Bytes → String) (d₀ d d' : Directory)
    (h₀ : ∀ part, ∀ document ∈ d₀.document part, document.Sound)
    (hd : Reach (Directory.step sha256) (fun _ _ => True) d₀ d) (part : Part) (n : ℕ)
    (hn : ∃ document ∈ d.document part, document.lists n)
    (hd' : Reach (Directory.step sha256) (fun _ _ => True) d d') :
    (∃ document ∈ d'.document part, document.lists n ∧ document.mixedWriterConflict = true) ∧
    (∀ timestamp now, n ∈ (d'.mergedConflicts timestamp now).map ConflictRecord.index) ∧
    (∀ part, ∀ document ∈ d'.document part, document.servingAllowed = false) ∧
    ∀ call, call.reachesStore = true → ∃ report, (d'.call sha256 call).2 = some report ∧
      report.servingAllowed = false ∧ (report.reports n ↔ call.raises d' = false) := by
  have hsound := reach_sound (hd.trans hd') h₀
  have hknown : ∃ document ∈ d'.document part, document.knows n := by
    obtain ⟨document, hdocument, hlists⟩ := hn
    exact reach_knows hd' ⟨document, hdocument, hlists.knows⟩
  obtain ⟨document, hdocument, hknows⟩ := hknown
  have hmerged : ∀ timestamp now, n ∈ (d'.mergedConflicts timestamp now).map ConflictRecord.index :=
    fun _ _ => mem_mergedConflicts.2 ⟨part, document, hdocument, hknows⟩
  have hwell := hsound part document hdocument
  refine ⟨⟨document, hdocument, hwell.lists n hknows, hwell.mixed.2 ⟨n, hknows⟩⟩, hmerged,
    fun part document hdocument => (hsound part document hdocument).serving, fun call hreach => ?_⟩
  cases call with
  | storeMetadata call =>
    refine ⟨_, rfl, ?_, iff_of_true (writeStoreMetadata_reports call hreach hmerged) rfl⟩
    show (d'.writeStoreMetadata call).2.servingAllowed = false
    rw [Directory.writeStoreMetadata]
    dsimp only
    split_ifs <;> rfl
  | initMedia call => cases hreach
  | segmentMedia call =>
    refine ⟨_, rfl, ?_, writeSegmentMedia_reports call hreach hmerged⟩
    show (d'.writeSegmentMedia sha256 call).2.servingAllowed = false
    have hcourse := d'.segmentCourse sha256 call
    generalize d'.writeSegmentMedia sha256 call = result at hcourse ⊢
    cases hcourse <;> rfl

/-- A time of day. -/
def noon : Timestamp := ⟨"2026-01-01T12:00:00+00:00", by decide⟩

/-- Everything that the segment writer checks first is in order. -/
def cleared : WriterChecks := ⟨true, "contract", true, "written", "hash_available", []⟩

/-- The first segment with the bytes. -/
def firstPlan (bytes : Bytes) : Plan := ⟨some 0, some bytes, [], none, true, none⟩

/-- A store with its metadata and its init file, the first segment, and then other bytes for it. -/
def mixedWriters : List Call :=
  [.storeMetadata ⟨"contract", .blank, false, noon, noon, none⟩,
    .initMedia ⟨⟨⟨true, "contract", true, "written", "hash_available", []⟩, some "init",
      ""⟩, noon, none⟩,
    .segmentMedia ⟨cleared, [firstPlan [1]], 2, noon, noon, none⟩,
    .segmentMedia ⟨cleared, [firstPlan [2]], 2, noon, noon, none⟩]

/-- The bytes as text, in place of a digest. -/
def plainDigest (bytes : Bytes) : String := String.ofList (bytes.map fun b => Char.ofNat b.toNat)

/-- A further segment, while `segments.json` cannot be written. -/
def failingWrite : Call :=
  .segmentMedia ⟨cleared, [⟨some 1, some [3], [], none, true, none⟩], 2, noon, noon,
    some .writeSegments⟩

theorem mixedWriters_run : ∃ d, runFrom (Directory.step plainDigest) .empty mixedWriters = some d ∧
    (∃ document ∈ d.document .segments, document.lists 0) ∧
    ∀ report ∈ (d.call plainDigest failingWrite).2,
      0 ∉ report.conflictIndexes ∧ report.mixedWriterConflict = false := by
  have hrun : ((runFrom (Directory.step plainDigest) .empty mixedWriters).any fun d =>
      (d.document .segments).any (fun document =>
        document.conflictIndexes.any fun raw => decide (raw.index? = some 0)) &&
      ((d.call plainDigest failingWrite).2.all fun report =>
        decide (0 ∉ report.conflictIndexes ∧ report.mixedWriterConflict = false))) = true := by
    decide +kernel
  obtain ⟨d, hd, hall⟩ := (Option.any_eq_true _ _).1 hrun
  rw [Bool.and_eq_true] at hall
  obtain ⟨document, hdocument, hany⟩ := (Option.any_eq_true _ _).1 hall.1
  obtain ⟨raw, hraw, hindex⟩ := List.any_eq_true.1 hany
  refine ⟨d, hd, ⟨document, hdocument, raw, hraw, of_decide_eq_true hindex⟩, ?_⟩
  intro report hreport
  exact of_decide_eq_true ((Option.all_eq_true _ _).1 hall.2 report hreport)

theorem conflict_remembered_mixedWriters :
    ∃ d, runFrom (Directory.step plainDigest) .empty mixedWriters = some d ∧
      ∀ timestamp now, 0 ∈ (d.mergedConflicts timestamp now).map ConflictRecord.index := by
  obtain ⟨d, hd, hlists, -⟩ := mixedWriters_run
  refine ⟨d, hd, (conflict_remembered plainDigest .empty d d ?_ (reach_of_runFrom hd)
    .segments 0 hlists .start).2.1⟩
  intro part document hdocument
  cases part <;> cases hdocument

/-- The conflict on the first segment is in `segments.json`, and a write that reaches the store and
then fails reports no conflict at all. -/
theorem failing_write_unaware :
    ∃ d, runFrom (Directory.step plainDigest) .empty mixedWriters = some d ∧
      (∃ document ∈ d.document .segments, document.lists 0) ∧ failingWrite.reachesStore = true ∧
      ∃ report, (d.call plainDigest failingWrite).2 = some report ∧
        0 ∉ report.conflictIndexes ∧ report.mixedWriterConflict = false := by
  obtain ⟨d, hd, hlists, hreport⟩ := mixedWriters_run
  exact ⟨d, hd, hlists, by decide, _, rfl, hreport _ rfl⟩

end SharedStore
