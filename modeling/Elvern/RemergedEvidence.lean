/-
Evidence of conflicts that is merged again in later calls (`route2_shared_output_store.py`).

* `Coherent` — documents as the store writes them, with one first time for each index;
* `Fits` — a payload into which conflicts can be put without a change of first times;
* `Directory.sees`, `Directory.rewrites` — the call sees a new conflict on the index; it writes the
  document;
* `call_times` — a call that sees none keeps the first time, and brings its own time to what it
  writes;
* `remerge_unchanged_iff` — stored evidence stays as it is exactly where the merge has its time.
-/
import Elvern.ConflictTimes

open ConflictEvidence SharedOutput Runs

namespace SharedStore

/-- The times of an index in a document of the directory. -/
def Directory.times (d : Directory) (part : Part) (n : ℕ) : Option Times :=
  (d.document part).bind fun document => document.times n

/-- The documents are those of the store, and agree on the first time of each index. -/
structure Coherent (d : Directory) : Prop where
  recorded : ∀ part, ∀ document ∈ d.document part, document.Recorded
  first : ∀ n part part' times times', d.times part n = some times → d.times part' n = some times' →
    times.1 = times'.1

/-- The first times of the payload are those of the conflicts. -/
def Fits (payload : Document) (conflicts : List ConflictRecord) : Prop :=
  payload.Recorded ∧ ∀ n times, payload.times n = some times →
    (timesOf n conflicts).map Prod.fst = some times.1

/-- The first times of all documents are those of the conflicts, where both are there. -/
def Agrees (d : Directory) (conflicts : List ConflictRecord) : Prop :=
  ∀ n part times own, d.times part n = some times → timesOf n conflicts = some own → times.1 = own.1

/-- The conflicts have all that the documents have. -/
def Covers (d : Directory) (conflicts : List ConflictRecord) : Prop :=
  ∀ n part times, d.times part n = some times → (timesOf n conflicts).map Prod.fst = some times.1

section Documents

variable {d d' : Directory} {n : ℕ} {payload : Document} {conflicts E : List ConflictRecord}
  {present : Bool} {t now : Timestamp}

theorem fits_of_none (h : payload.segmentHashConflicts = []) (h' : payload.conflictIndexes = []) :
    Fits payload conflicts := by
  refine ⟨⟨[], List.nodup_nil, h, ?_⟩, ?_⟩
  · rw [h']
    simp [sortedIndexes]
  · intro n times htimes
    rw [Document.times, h] at htimes
    cases htimes

theorem Fits.applied (h : Fits payload conflicts)
    (hconflicts : (conflicts.map ConflictRecord.index).Nodup) :
    Fits (applyServabilityFields payload present conflicts now) conflicts ∧
      ∀ n, (applyServabilityFields payload present conflicts now).times n =
          timesOf n conflicts := by
  obtain ⟨⟨records, hrecords⟩, hfirst⟩ := h
  have htimes : ∀ n, (applyServabilityFields payload present conflicts now).times n =
      timesOf n conflicts := fun n => times_applied hrecords hconflicts (hfirst n)
  refine ⟨⟨recorded_applied, fun n times hn => ?_⟩, htimes⟩
  rw [htimes] at hn
  rw [hn]
  rfl

theorem Covers.agrees (h : Covers d conflicts) : Agrees d conflicts := by
  intro n part times own htimes hown
  have hfirst := h n part times htimes
  rw [hown, Option.map_some, Option.some_inj] at hfirst
  exact hfirst.symm

theorem Covers.fits (h : Covers d conflicts) (hd : Coherent d) (part : Part) {document : Document}
    (hdocument : d.document part = some document) : Fits document conflicts := by
  refine ⟨hd.recorded part document hdocument, fun n times htimes => h n part times ?_⟩
  rw [Directory.times, hdocument]
  exact htimes

/-- Joining the evidence of documents with one first time. -/
theorem foldl_documents {first : Timestamp} {documents : List Document}
    (hrecorded : ∀ document ∈ documents, document.Recorded)
    (hfirst : ∀ document ∈ documents, ∀ own, document.times n = some own → own.1 = first) :
    ∀ times : Option Times, (∀ own ∈ times, own.1 = first) →
      ((documents.flatMap Document.raws).filterMap (normalizeConflictRecord (some t.1) now)).foldl
        (joined n) times =
          if ∃ document ∈ documents, (document.times n).isSome = true then some (first, t)
              else times := by
  induction documents with
  | nil =>
    intro times _
    simp
  | cons document documents ih =>
    intro times htimes
    obtain ⟨records, hrecords⟩ := hrecorded document List.mem_cons_self
    have hrest := ih (fun other hother => hrecorded other (List.mem_cons_of_mem _ hother))
      fun other hother => hfirst other (List.mem_cons_of_mem _ hother)
    have htime : (truthy (some t.1)).getD now = t := by
      rw [truthy_some]
      rfl
    rw [List.flatMap_cons, List.filterMap_append, List.foldl_append,
      foldl_joined_raws hrecords (some t.1) htime]
    cases hown : document.times n with
    | none =>
      dsimp only
      rw [hrest times htimes]
      simp only [List.mem_cons, exists_eq_or_imp, hown, Option.isSome_none,
        Bool.false_eq_true, false_or]
    | some own =>
      dsimp only
      have hname : own.1 = first := hfirst document List.mem_cons_self own hown
      have hjoined : (times.map Prod.fst).getD own.1 = first := by
        cases times with
        | none => exact hname
        | some was => exact htimes was rfl
      have hsame : ∀ was ∈ some (first, t), was.1 = first := by
        rintro was ⟨⟩
        rfl
      rw [hjoined, hrest _ hsame]
      have hsome : ∃ other ∈ document :: documents, (other.times n).isSome = true :=
        ⟨document, List.mem_cons_self, by rw [hown]; rfl⟩
      rw [if_pos hsome]
      split_ifs <;> rfl

/-- Joining the evidence of a directory: its first time, and the time of the merge. -/
theorem Coherent.joined (hd : Coherent d) (n : ℕ) (t now : Timestamp) :
    (∀ part own, d.times part n = some own →
      ((d.documents.flatMap Document.raws).filterMap (normalizeConflictRecord (some t.1) now)).foldl
        (joined n) none = some (own.1, t)) ∧
    ((∀ part, d.times part n = none) →
      ((d.documents.flatMap Document.raws).filterMap (normalizeConflictRecord (some t.1) now)).foldl
        (joined n) none = none) := by
  have hrecorded : ∀ document ∈ d.documents, document.Recorded := by
    intro document hdocument
    obtain ⟨part, hpart⟩ := mem_documents.1 hdocument
    exact hd.recorded part document hpart
  have hnothing : ∀ first : Timestamp, ∀ own ∈ (none : Option Times), own.1 = first := by
    rintro first own ⟨⟩
  constructor
  · intro part own hown
    -- whichever document comes first has the same first time
    have hfirst : ∀ document ∈ d.documents, ∀ other, document.times n = some other →
        other.1 = own.1 := by
      intro document hdocument other hother
      obtain ⟨part', hpart'⟩ := mem_documents.1 hdocument
      refine hd.first n part' part other own ?_ hown
      rw [Directory.times, hpart']
      exact hother
    obtain ⟨document, hdocument, htimes⟩ := Option.bind_eq_some_iff.1 hown
    have hsome : ∃ document ∈ d.documents, (document.times n).isSome = true :=
      ⟨document, mem_documents.2 ⟨part, hdocument⟩, by rw [htimes]; rfl⟩
    rw [foldl_documents hrecorded hfirst none (hnothing _), if_pos hsome]
  · intro hnone
    have hno : ∀ document ∈ d.documents, document.times n = none := by
      intro document hdocument
      obtain ⟨part, hpart⟩ := mem_documents.1 hdocument
      have htimes := hnone part
      rw [Directory.times, hpart] at htimes
      exact htimes
    have hfirst : ∀ document ∈ d.documents, ∀ other, document.times n = some other →
        other.1 = t := by
      intro document hdocument other hother
      rw [hno document hdocument] at hother
      cases hother
    have hsome : ¬ ∃ document ∈ d.documents, (document.times n).isSome = true := by
      rintro ⟨document, hdocument, hsome⟩
      rw [hno document hdocument] at hsome
      cases hsome
    rw [foldl_documents hrecorded hfirst none (hnothing _), if_neg hsome]

theorem Coherent.merged (hd : Coherent d) (t now : Timestamp) {part : Part} {own : Times}
    (hown : d.times part n = some own) : timesOf n (d.mergedConflicts t now) = some (own.1, t) := by
  rw [Directory.mergedConflicts, timesOf_merge]
  exact (hd.joined n t now).1 part own hown

theorem Coherent.covers (hd : Coherent d) (t now : Timestamp) :
    Covers d (d.mergedConflicts t now) := by
  intro n part times htimes
  rw [hd.merged t now htimes]
  rfl

/-- The evidence of the documents does not change conflicts that are merged behind it. -/
theorem Coherent.merged_onto (hd : Coherent d) (hE : (E.map ConflictRecord.index).Nodup)
    (hcovers : Covers d E) (t now : Timestamp) (n : ℕ) :
    timesOf n (mergeConflictRecords (d.documents.flatMap Document.raws ++ E.map ConflictRecord.raw)
      (some t.1) now) = timesOf n E := by
  refine timesOf_merge_onto hE fun times htimes => ?_
  by_cases hnone : ∀ part, d.times part n = none
  · rw [(hd.joined n t now).2 hnone] at htimes
    cases htimes
  · rw [not_forall] at hnone
    obtain ⟨part, hpart⟩ := hnone
    obtain ⟨own, hown⟩ := Option.ne_none_iff_exists'.1 hpart
    rw [(hd.joined n t now).1 part own hown] at htimes
    cases htimes
    exact hcovers n part own hown

end Documents

/-! ### The loop over the plans -/

/-- The plan gets to a file with other bytes. -/
def Plan.sees (sha256 : Bytes → String) (s : Writing) (plan : Plan) (index : ℕ)
    (staged : Bytes) : Bool :=
  !(truthy plan.expectedFilename).any (·.1 ≠ sharedSegmentFilename index) &&
    !List.contains [some .copy, some .hashStaged, some .lookUp] plan.failsAt &&
    (s.files (sharedSegmentFilename index)).any fun final =>
      !List.contains [some .checkRegular, some .hashFinal] plan.failsAt &&
        decide (sha256 final ≠ sha256 staged)

/-- One of the plans does so for the index. -/
def plansSee (sha256 : Bytes → String) (timestamp now : Timestamp) (n : ℕ) :
    Writing → List Plan → Bool
  | _, [] => false
  | s, plan :: rest =>
    match plan.absoluteIndex with
    | none => false
    | some index =>
      match plan.sourceSegment with
      | none => plansSee sha256 timestamp now n s rest
      | some staged =>
        if plan.hardBlockers ≠ [] then plansSee sha256 timestamp now n s rest
        else if index < 0 then false
        else
          (decide (index.toNat = n) && plan.sees sha256 s index.toNat staged) ||
            plansSee sha256 timestamp now n
              (writePlan sha256 timestamp now s plan index.toNat staged) rest

section Loop

variable {sha256 : Bytes → String} {timestamp now : Timestamp} {n : ℕ} {s : Writing}

/-- A plan that sees no other bytes leaves the conflicts. -/
theorem writePlan_unseen {plan : Plan} {index : ℕ} {staged : Bytes}
    (h : plan.sees sha256 s index staged = false) :
    (writePlan sha256 timestamp now s plan index staged).conflicts = s.conflicts := by
  rw [writePlan]
  dsimp only
  by_cases hname : (truthy plan.expectedFilename).any (·.1 ≠ sharedSegmentFilename index) = true
  · rw [if_pos hname]
  rw [if_neg hname]
  by_cases hearly : plan.failsAt ∈ [some .copy, some .hashStaged, some .lookUp]
  · rw [if_pos hearly]
  rw [if_neg hearly]
  cases hfile : s.files (sharedSegmentFilename index) with
  | none =>
    dsimp only
    split_ifs <;> rfl
  | some final =>
    dsimp only
    by_cases hcheck : plan.failsAt ∈ [some .checkRegular, some .hashFinal]
    · rw [if_pos hcheck]
    rw [if_neg hcheck]
    by_cases hhash : sha256 final ≠ sha256 staged
    · rw [Plan.sees, hfile, Option.any_some, Bool.eq_false_iff.2 hname, List.contains_eq_mem,
        List.contains_eq_mem, decide_eq_false hearly, decide_eq_false hcheck,
          decide_eq_true hhash] at h
      cases h
    · rw [if_neg hhash]
      split_ifs <;> rfl

/-- The conflicts of a plan: what they were, or one more record for its index. -/
theorem writePlan_times (hnodup : (s.conflicts.map ConflictRecord.index).Nodup)
    (plan : Plan) (index : ℕ) (staged : Bytes) :
    ((writePlan sha256 timestamp now s plan index staged).conflicts.map
      ConflictRecord.index).Nodup ∧
      ∀ n, timesOf n (writePlan sha256 timestamp now s plan index staged).conflicts =
          timesOf n s.conflicts ∨ index = n ∧
        ∃ r, timesOf n (writePlan sha256 timestamp now s plan index staged).conflicts =
          joined n (timesOf n s.conflicts) r ∧ r.index = n := by
  have hsame : ∀ s' : Writing, s'.conflicts = s.conflicts →
      (s'.conflicts.map ConflictRecord.index).Nodup ∧ ∀ n, timesOf n s'.conflicts =
        timesOf n s.conflicts ∨
        index = n ∧ ∃ r, timesOf n s'.conflicts = joined n (timesOf n s.conflicts) r ∧
            r.index = n := by
    intro s' heq
    rw [heq]
    exact ⟨hnodup, fun n => Or.inl rfl⟩
  obtain heq | ⟨final, -, -, heq⟩ | ⟨final, writtenAt, -, heq⟩ | ⟨-, records, -, heq⟩ :=
    writePlan_cases sha256 timestamp now s plan index staged
  · exact hsame _ (by rw [heq])
  · rw [heq]
    refine ⟨nodup_merge _, fun n => ?_⟩
    have htimes : timesOf n (mergeConflictRecords (s.conflicts.map ConflictRecord.raw ++
        [(conflictRecord sha256 timestamp index final staged).raw]) (some timestamp.1) now) =
        joined n (timesOf n s.conflicts) (conflictRecord sha256 timestamp index final staged) := by
      have hsingle : [(conflictRecord sha256 timestamp index final staged).raw] =
          [conflictRecord sha256 timestamp index final staged].map ConflictRecord.raw := rfl
      rw [timesOf_merge, hsingle, ← List.map_append, normalize_raws, List.foldl_append,
        foldl_joined hnodup]
      cases timesOf n s.conflicts with
      | none => rfl
      | some own => rfl
    by_cases hindex : index = n
    · exact Or.inr ⟨hindex, _, htimes, hindex⟩
    · left
      rw [htimes]
      exact if_neg hindex
  · exact hsame _ (by rw [heq])
  · exact hsame _ (by rw [heq])

/-- **The loop** keeps the first times, and the times of an index for which no plan sees other
bytes. -/
theorem writePlans_times {plans : List Plan} : ∀ {s : Writing},
    (s.conflicts.map ConflictRecord.index).Nodup →
    ((writePlans sha256 timestamp now s plans).1.conflicts.map ConflictRecord.index).Nodup ∧
      (∀ n own, timesOf n s.conflicts = some own →
        (timesOf n (writePlans sha256 timestamp now s plans).1.conflicts).map
          Prod.fst = some own.1) ∧
      ∀ n, plansSee sha256 timestamp now n s plans = false →
        timesOf n (writePlans sha256 timestamp now s plans).1.conflicts =
            timesOf n s.conflicts := by
  induction plans with
  | nil =>
    intro s h
    refine ⟨h, fun n own hown => ?_, fun n _ => rfl⟩
    show (timesOf n s.conflicts).map Prod.fst = some own.1
    rw [hown]
    rfl
  | cons plan rest ih =>
    intro s h
    have hstay : (s.conflicts.map ConflictRecord.index).Nodup ∧
        (∀ n own, timesOf n s.conflicts = some own →
          (timesOf n s.conflicts).map Prod.fst = some own.1) ∧
        ∀ n : ℕ, timesOf n s.conflicts = timesOf n s.conflicts := by
      refine ⟨h, fun n own hown => ?_, fun n => rfl⟩
      rw [hown]
      rfl
    simp only [writePlans, plansSee]
    cases plan.absoluteIndex with
    | none => exact ⟨hstay.1, hstay.2.1, fun n _ => rfl⟩
    | some index =>
      cases plan.sourceSegment with
      | none => exact ih h
      | some staged =>
        dsimp only
        by_cases hblockers : plan.hardBlockers ≠ []
        · simp only [if_pos hblockers]
          exact ih h
        simp only [if_neg hblockers]
        by_cases hneg : index < 0
        · simp only [if_pos hneg]
          exact ⟨hstay.1, hstay.2.1, fun _ _ => trivial⟩
        simp only [if_neg hneg]
        -- one plan, and then the rest from what it leaves
        obtain ⟨hnodup, hplan⟩ := @writePlan_times sha256 timestamp now s h plan index.toNat staged
        obtain ⟨hnodup', hfirst, hunseen⟩ := ih hnodup
        refine ⟨hnodup', fun n own hown => ?_, fun n hsee => ?_⟩
        · rcases hplan n with hsame | ⟨-, r, hjoined, hr⟩
          · exact hfirst n own (hsame.trans hown)
          · rw [hown, joined, if_pos hr] at hjoined
            have hkept := hfirst n _ hjoined
            exact hkept
        · rw [Bool.or_eq_false_iff] at hsee
          rw [hunseen n hsee.2]
          rcases hplan n with hsame | ⟨hindex, -⟩
          · exact hsame
          · have hsees := hsee.1
            rw [decide_eq_true hindex, Bool.true_and] at hsees
            rw [writePlan_unseen hsees]

end Loop

/-! ### Calls -/

/-- The end of the segment writer comes to write the document. -/
def SegmentMediaCall.writes (call : SegmentMediaCall) (part : Part) : Bool :=
  decide (0 < call.segmentDurationSeconds) &&
    match part with
    | .segments => decide (call.failsAt ≠ some .writeSegments)
    | .ranges => !List.contains [some .writeSegments, some .writeRanges] call.failsAt
    | .metadata =>
      !List.contains [some .writeSegments, some .writeRanges, some .writeMetadata] call.failsAt

namespace Directory

variable (sha256 : Bytes → String) (d : Directory)

/-- The segment writer comes to its loop. -/
def entersLoop (call : SegmentMediaCall) : Bool :=
  call.checks.writerEnabled && decide (call.failsAt ≠ some .readDocuments) &&
    !d.segmentsBlocked call && decide (call.failsAt ≠ some .makeDirectories)

/-- The call writes the document, where a conflict is known. -/
def rewrites : Call → Part → Bool
  | .storeMetadata call, part =>
    !List.contains [some .readDocuments, some .writeContract] call.failsAt &&
      decide (¬ ∃ existing ∈ d.contract, existing ≠ call.contract) &&
      match part with
      | .metadata => decide (call.failsAt ≠ some .writeMetadata)
      | .ranges => !List.contains [some .writeMetadata, some .writeRanges] call.failsAt
      | .segments => false
  | .initMedia call, part =>
    d.initView.initAccepted call.call && decide (call.failsAt = none) &&
      match part with
      | .metadata => true
      | _ => false
  | .segmentMedia call, part =>
    d.entersLoop call && !call.plans.isEmpty && !call.plans.any Plan.raises && call.writes part

/-- The call sees a new conflict on the index. -/
def sees (n : ℕ) : Call → Bool
  | .segmentMedia call =>
    d.entersLoop call && plansSee sha256 call.timestamp call.now n (d.writing call) call.plans
  | _ => false

end Directory

/-- The time that a call merges with. -/
def Call.time : Call → Timestamp
  | .storeMetadata call => call.timestamp
  | .initMedia call => call.now
  | .segmentMedia call => call.timestamp

/-- The metadata that come with a call have no evidence, as `build_shared_output_metadata` makes
them. -/
def Call.Plain : Call → Prop
  | .storeMetadata call =>
    call.metadata.segmentHashConflicts = [] ∧ call.metadata.conflictIndexes = []
  | _ => True

/-- Each document is left alone, or gets the times of the conflicts. -/
def Updated (d d' : Directory) (conflicts : List ConflictRecord) : Prop :=
  ∀ part, d'.document part = d.document part ∨
    ∃ document, d'.document part = some document ∧ document.Recorded ∧
      ∀ n, document.times n = timesOf n conflicts

section Calls

variable {sha256 : Bytes → String} {d d' : Directory} {n : ℕ} {conflicts : List ConflictRecord}

/-- Conflicts with the first times of the documents leave one first time for each index. -/
theorem Updated.coherent (h : Updated d d' conflicts) (hd : Coherent d)
    (hagrees : Agrees d conflicts) : Coherent d' := by
  have htimes : ∀ n part times, d'.times part n = some times →
      d.times part n = some times ∨ timesOf n conflicts = some times := by
    intro n part times hpart
    rcases h part with heq | ⟨document, hdocument, -, hall⟩
    · rw [Directory.times, heq] at hpart
      exact Or.inl hpart
    · rw [Directory.times, hdocument, Option.bind_some, hall] at hpart
      exact Or.inr hpart
  constructor
  · intro part document hdocument
    rcases h part with heq | ⟨written, hwritten, hrecorded, -⟩
    · rw [heq] at hdocument
      exact hd.recorded part document hdocument
    · rw [hwritten] at hdocument
      cases hdocument
      exact hrecorded
  · intro n part part' times times' hpart hpart'
    rcases htimes n part times hpart with hold | hnew
    · rcases htimes n part' times' hpart' with hold' | hnew'
      · exact hd.first n part part' times times' hold hold'
      · exact hagrees n part times times' hold hnew'
    · rcases htimes n part' times' hpart' with hold' | hnew'
      · exact (hagrees n part' times' times hold' hnew).symm
      · rw [hnew, Option.some_inj] at hnew'
        rw [hnew']

theorem updated_of_fits {payload : Document} {present : Bool} {now : Timestamp}
    (h : Fits payload conflicts)
    (hconflicts : (conflicts.map ConflictRecord.index).Nodup) {part : Part}
    (hpart : d'.document part = some (applyServabilityFields payload present conflicts now)) :
    d'.document part = d.document part ∨ ∃ document, d'.document part = some document ∧
      document.Recorded ∧ ∀ n, document.times n = timesOf n conflicts :=
  Or.inr ⟨_, hpart, recorded_applied, (h.applied hconflicts).2⟩

/-- The ranges of the metadata writer get the conflicts as often as they are put into them. -/
theorem rangesPayload_fits (hd : Coherent d)
    (hconflicts : (conflicts.map ConflictRecord.index).Nodup)
    (hcovers : Covers d conflicts) (call : StoreMetadataCall) :
    ∃ payload, Fits payload conflicts ∧ d.rangesPayload call conflicts =
      applyServabilityFields payload payload.mediaBytesPresent conflicts call.now := by
  have hempty : Fits (applyServabilityFields .blank false [] call.now) conflicts := by
    refine ⟨recorded_applied, fun n times htimes => ?_⟩
    rw [times_reapplied recorded_blank] at htimes
    cases htimes
  have hfits : ∀ {payload : Document}, Fits payload conflicts →
      Fits { payload with mediaBytesPresent := false } conflicts := fun h => h
  rw [Directory.rangesPayload]
  refine ⟨_, ?_, rfl⟩
  split_ifs
  · exact hempty
  · cases hranges : d.ranges with
    | none => exact hempty
    | some ranges => exact ((hcovers.fits hd .ranges hranges).applied hconflicts).1
  · refine ((hfits ?_).applied hconflicts).1
    cases hranges : d.ranges with
    | none => exact hempty
    | some ranges => exact ((hcovers.fits hd .ranges hranges).applied hconflicts).1

/-- Conflicts are put into the documents that are written, and the others are left alone. -/
def Writes (d d' : Directory) (conflicts : List ConflictRecord) (now : Timestamp)
    (written : Part → Bool) :
    Prop :=
  ∀ part, (written part = false ∧ d'.document part = d.document part) ∨
    (written part = true ∧ ∃ payload present, Fits payload conflicts ∧
      d'.document part = some (applyServabilityFields payload present conflicts now))

section Written

variable {now t : Timestamp} {written : Part → Bool}

theorem Writes.updated (h : Writes d d' conflicts now written)
    (hconflicts : (conflicts.map ConflictRecord.index).Nodup) : Updated d d' conflicts := by
  intro part
  rcases h part with ⟨-, heq⟩ | ⟨-, payload, present, hfits, heq⟩
  · exact Or.inl heq
  · exact updated_of_fits hfits hconflicts heq

/-- The first time stays, and the last one is that of the conflicts where the document is
written. -/
theorem Writes.times (h : Writes d d' conflicts now written)
    (hconflicts : (conflicts.map ConflictRecord.index).Nodup) {part : Part} {own : Times}
    (hown : d.times part n = some own) (hn : timesOf n conflicts = some (own.1, t)) :
    d'.times part n = some (own.1, if written part = true then t else own.2) := by
  rcases h part with ⟨hwritten, heq⟩ | ⟨hwritten, payload, present, hfits, heq⟩
  · rw [hwritten, if_neg Bool.false_ne_true, Directory.times, heq]
    exact hown
  · rw [if_pos hwritten, Directory.times, heq, Option.bind_some, (hfits.applied hconflicts).2, hn]

end Written

theorem writeStoreMetadata_writes (hd : Coherent d) {call : StoreMetadataCall}
    (hplain : (Call.storeMetadata call).Plain) :
    Writes d (d.writeStoreMetadata call).1 (d.mergedConflicts call.timestamp call.now) call.now
      (d.rewrites (.storeMetadata call)) := by
  have hnodup : ((d.mergedConflicts call.timestamp call.now).map ConflictRecord.index).Nodup :=
    nodup_merge _
  have hcovers := hd.covers call.timestamp call.now
  have hmetadata : Fits { call.metadata with
      mediaBytesPresent := call.metadata.mediaBytesPresent || !d.listed.isEmpty }
      (d.mergedConflicts call.timestamp call.now) := fits_of_none hplain.1 hplain.2
  obtain ⟨payload, hpayload, hranges⟩ := rangesPayload_fits hd hnodup hcovers call
  -- the exits in their order, each with the documents that are written before it
  intro part
  rw [Directory.writeStoreMetadata]
  dsimp only
  by_cases hread : call.failsAt = some .readDocuments
  · rw [if_pos hread]
    exact Or.inl ⟨by simp [Directory.rewrites, hread], rfl⟩
  rw [if_neg hread]
  by_cases hcontract : call.failsAt = some .writeContract
  · rw [if_pos hcontract]
    exact Or.inl ⟨by simp [Directory.rewrites, hcontract], rfl⟩
  rw [if_neg hcontract]
  by_cases hexisting : ∃ existing ∈ d.contract, existing ≠ call.contract
  · rw [if_pos hexisting]
    refine Or.inl ⟨?_, rfl⟩
    have hfalse : decide (¬ ∃ existing ∈ d.contract, existing ≠ call.contract) = false :=
      decide_eq_false (not_not.2 hexisting)
    simp only [Directory.rewrites, hfalse, Bool.and_false, Bool.false_and]
  rw [if_neg hexisting]
  have hbefore : (!List.contains [some .readDocuments, some .writeContract] call.failsAt &&
      decide (¬ ∃ existing ∈ d.contract, existing ≠ call.contract)) = true := by
    rw [decide_eq_true hexisting, Bool.and_true]
    simp [hread, hcontract]
  have hrewrites : ∀ part, d.rewrites (.storeMetadata call) part =
      match part with
      | .metadata => decide (call.failsAt ≠ some .writeMetadata)
      | .ranges => !List.contains [some .writeMetadata, some .writeRanges] call.failsAt
      | .segments => false := by
    intro part
    simp only [Directory.rewrites, hbefore, Bool.true_and]
  rw [hrewrites]
  by_cases hwriteMetadata : call.failsAt = some .writeMetadata
  · rw [if_pos hwriteMetadata]
    cases part with
    | metadata => exact Or.inl ⟨by simp [hwriteMetadata], rfl⟩
    | ranges => exact Or.inl ⟨by simp [hwriteMetadata], rfl⟩
    | segments => exact Or.inl ⟨rfl, rfl⟩
  rw [if_neg hwriteMetadata]
  by_cases hwriteRanges : call.failsAt = some .writeRanges
  · rw [if_pos hwriteRanges]
    cases part with
    | metadata => exact Or.inr ⟨by simp [hwriteRanges], _, _, hmetadata, rfl⟩
    | ranges => exact Or.inl ⟨by simp [hwriteRanges], rfl⟩
    | segments => exact Or.inl ⟨rfl, rfl⟩
  rw [if_neg hwriteRanges]
  cases part with
  | metadata => exact Or.inr ⟨by simp [hwriteMetadata], _, _, hmetadata, rfl⟩
  | ranges =>
    exact Or.inr ⟨by simp [hwriteMetadata, hwriteRanges], _, _, hpayload, congrArg some hranges⟩
  | segments => exact Or.inl ⟨rfl, rfl⟩

/-- The metadata at the end of the segment writer. -/
theorem updateSegmentMetadata_writes (hd : Coherent d) (call : SegmentMediaCall) {s : Writing}
    (hnodup : (s.conflicts.map ConflictRecord.index).Nodup) (hcovers : Covers d s.conflicts) :
    Writes d (d.updateSegmentMetadata call s).1 (mergeConflictRecords
        (d.documents.flatMap Document.raws ++ s.conflicts.map ConflictRecord.raw)
          (some call.timestamp.1)
        call.now) call.now call.writes := by
  generalize hconflicts : mergeConflictRecords
    (d.documents.flatMap Document.raws ++ s.conflicts.map ConflictRecord.raw)
    (some call.timestamp.1) call.now = conflicts
  have hcovers' : Covers d conflicts := by
    intro n part times htimes
    rw [← hconflicts, hd.merged_onto hnodup hcovers]
    exact hcovers n part times htimes
  have hblank : ∀ present, Fits { Document.blank with mediaBytesPresent := present } conflicts :=
    fun present => fits_of_none rfl rfl
  have hmetadata : ∀ present, Fits { d.metadata.getD .blank with mediaBytesPresent := present }
      conflicts := by
    intro present
    cases hmetadata : d.metadata with
    | none => exact hblank present
    | some metadata =>
      have hfits : Fits metadata conflicts := hcovers'.fits hd .metadata hmetadata
      exact hfits
  intro part
  rw [Directory.updateSegmentMetadata]
  unfold SegmentMediaCall.writes
  dsimp only
  rw [hconflicts]
  by_cases hduration : call.segmentDurationSeconds ≤ 0
  · rw [if_pos (Or.inl hduration), decide_eq_false (not_lt.2 hduration)]
    cases part <;> exact Or.inl ⟨rfl, rfl⟩
  rw [decide_eq_true (not_le.1 hduration), Bool.true_and]
  by_cases hsegments : call.failsAt = some .writeSegments
  · rw [if_pos (Or.inr hsegments), hsegments]
    cases part <;> exact Or.inl ⟨rfl, rfl⟩
  rw [if_neg (not_or.2 ⟨hduration, hsegments⟩)]
  by_cases hranges : call.failsAt = some .writeRanges
  · rw [if_pos hranges, hranges]
    cases part with
    | segments => exact Or.inr ⟨rfl, _, _, hblank _, rfl⟩
    | ranges => exact Or.inl ⟨rfl, rfl⟩
    | metadata => exact Or.inl ⟨rfl, rfl⟩
  rw [if_neg hranges]
  by_cases hwriteMetadata : call.failsAt = some .writeMetadata
  · rw [if_pos hwriteMetadata, hwriteMetadata]
    cases part with
    | segments => exact Or.inr ⟨rfl, _, _, hblank _, rfl⟩
    | ranges => exact Or.inr ⟨rfl, _, _, hblank _, rfl⟩
    | metadata => exact Or.inl ⟨rfl, rfl⟩
  rw [if_neg hwriteMetadata]
  cases part with
  | segments => exact Or.inr ⟨by simp [hsegments], _, _, hblank _, rfl⟩
  | ranges => exact Or.inr ⟨by simp [hsegments, hranges], _, _, hblank _, rfl⟩
  | metadata =>
    exact Or.inr ⟨by simp [hsegments, hranges, hwriteMetadata], _, _, hmetadata _, rfl⟩

/-- What the call writes has conflicts that are those of the store but for what the call sees, with
its time; or there are none, and it writes no document. -/
def Carries (sha256 : Bytes → String) (d d' : Directory) (call : Call) : Prop :=
  ∃ conflicts now, (conflicts.map ConflictRecord.index).Nodup ∧ Covers d conflicts ∧
    (∀ n part own, d.sees sha256 n call = false → d.times part n = some own →
      timesOf n conflicts = some (own.1, call.time)) ∧
    (Writes d d' conflicts now (d.rewrites call) ∨
      conflicts = [] ∧ ∀ part, d'.document part = d.document part)

section Carried

variable {call : Call}

theorem Carries.coherent (h : Carries sha256 d d' call) (hd : Coherent d) : Coherent d' := by
  obtain ⟨conflicts, now, hnodup, hcovers, -, hwrites | ⟨-, hsame⟩⟩ := h
  · exact (hwrites.updated hnodup).coherent hd hcovers.agrees
  · have hupdated : Updated d d' conflicts := fun part => Or.inl (hsame part)
    exact hupdated.coherent hd hcovers.agrees

/-- The first time stays. -/
theorem Carries.first (h : Carries sha256 d d' call) {part : Part} {own : Times}
    (hown : d.times part n = some own) : (d'.times part n).map Prod.fst = some own.1 := by
  obtain ⟨conflicts, now, hnodup, hcovers, -, hwrites | ⟨hnone, -⟩⟩ := h
  · obtain ⟨found, hfound, hfirst⟩ := Option.map_eq_some_iff.1 (hcovers n part own hown)
    have htimes : timesOf n conflicts = some (own.1, found.2) := by
      rw [hfound, ← hfirst]
    rw [hwrites.times hnodup hown htimes]
    rfl
  · have hfirst := hcovers n part own hown
    rw [hnone] at hfirst
    cases hfirst

theorem Carries.times (h : Carries sha256 d d' call) {part : Part} {own : Times}
    (hsees : d.sees sha256 n call = false) (hown : d.times part n = some own) :
    d'.times part n = some (own.1, if d.rewrites call part = true then call.time else own.2) := by
  obtain ⟨conflicts, now, hnodup, hcovers, hunseen, hwrites | ⟨hnone, -⟩⟩ := h
  · exact hwrites.times hnodup hown (hunseen n part own hsees hown)
  · have hfirst := hcovers n part own hown
    rw [hnone] at hfirst
    cases hfirst

end Carried

theorem writeStoreMetadata_carries (hd : Coherent d) {call : StoreMetadataCall}
    (hplain : (Call.storeMetadata call).Plain) :
    Carries sha256 d (d.writeStoreMetadata call).1 (.storeMetadata call) :=
  ⟨_, _, nodup_merge _, hd.covers call.timestamp call.now,
    fun _ _ _ _ hown => hd.merged call.timestamp call.now hown,
    Or.inl (writeStoreMetadata_writes hd hplain)⟩

/-- A call that leaves the documents, and is not one that writes them. -/
theorem carries_of_same (hd : Coherent d) {call : SegmentMediaCall}
    (hrewrites : ∀ part, d.rewrites (.segmentMedia call) part = false)
    (hsame : ∀ part, d'.document part = d.document part) :
    Carries sha256 d d' (.segmentMedia call) :=
  ⟨_, call.now, nodup_merge _, hd.covers call.timestamp call.now,
    fun _ _ _ _ hown => hd.merged call.timestamp call.now hown,
    Or.inl fun part => Or.inl ⟨hrewrites part, hsame part⟩⟩

theorem rewrites_of_not_entersLoop {call : SegmentMediaCall}
    (h : d.entersLoop call = false) (part : Part) :
    d.rewrites (.segmentMedia call) part = false := by
  simp only [Directory.rewrites, h, Bool.false_and]

/-- What the loop knows of conflicts at its end. -/
structure Known (sha256 : Bytes → String) (d : Directory) (call : SegmentMediaCall)
    (s : Writing) : Prop where
  nodup : (s.conflicts.map ConflictRecord.index).Nodup
  covers : Covers d s.conflicts
  unseen : ∀ n part own, d.sees sha256 n (.segmentMedia call) = false → d.times part n = some own →
    timesOf n s.conflicts = some (own.1, call.timestamp)

/-- The evidence of the documents, and what the plans see. -/
theorem writePlans_known (hd : Coherent d) {call : SegmentMediaCall}
    (hentered : d.entersLoop call = true) : Known sha256 d call
      (writePlans sha256 call.timestamp call.now (d.writing call) call.plans).1 := by
  have hnodup : ((d.mergedConflicts call.timestamp call.now).map ConflictRecord.index).Nodup :=
    nodup_merge _
  obtain ⟨hnodup', hfirst, hunseen⟩ := @writePlans_times sha256 call.timestamp call.now call.plans
    (d.writing call) hnodup
  refine ⟨hnodup', fun n part times htimes => ?_, fun n part own hsees htimes => ?_⟩
  · obtain ⟨found, hfound, hname⟩ :=
      Option.map_eq_some_iff.1 (hd.covers call.timestamp call.now n part times htimes)
    rw [hfirst n found hfound, hname]
  · rw [Directory.sees, hentered, Bool.true_and] at hsees
    rw [hunseen n hsees]
    exact hd.merged call.timestamp call.now htimes

/-- The documents at the end of the segment writer get what the loop knows. -/
theorem Known.carries {call : SegmentMediaCall} {s : Writing} (h : Known sha256 d call s)
    (hd : Coherent d) (hentered : d.entersLoop call = true) (hplans : call.plans ≠ [])
    (hraised : call.plans.any Plan.raises = false) :
    Carries sha256 d (d.updateSegmentMetadata call s).1 (.segmentMedia call) := by
  have hrewrites : call.writes = d.rewrites (.segmentMedia call) := by
    funext part
    simp only [Directory.rewrites, hentered, hraised,
      List.isEmpty_eq_false_iff.2 hplans, Bool.not_false, Bool.true_and]
  have hwrites := updateSegmentMetadata_writes hd call h.nodup h.covers
  rw [hrewrites] at hwrites
  refine ⟨_, _, nodup_merge _, fun n part times htimes => ?_, fun n part own hsees htimes => ?_,
    Or.inl hwrites⟩
  · rw [hd.merged_onto h.nodup h.covers]
    exact h.covers n part times htimes
  · rw [hd.merged_onto h.nodup h.covers]
    exact h.unseen n part own hsees htimes

theorem writeSegmentMedia_carries (hd : Coherent d) (call : SegmentMediaCall) :
    Carries sha256 d (d.writeSegmentMedia sha256 call).1 (.segmentMedia call) := by
  have hentered : d.Loops call → d.entersLoop call = true := by
    intro h
    have hread := not_or.1 h.read
    simp [Directory.entersLoop, hread.1, hread.2, h.unblocked, h.directories]
  have hraised : (writePlans sha256 call.timestamp call.now (d.writing call) call.plans).2 =
      call.plans.any Plan.raises := writePlans_raised
  have hwritten : ∀ s failed d', d.Loops call →
      writePlans sha256 call.timestamp call.now (d.writing call) call.plans = (s, false) →
      d.updateSegmentMetadata call s = (d', failed) → Carries sha256 d d' (.segmentMedia call) := by
    intro s failed d' hloops h hupdate
    have hknown := @writePlans_known sha256 d hd call (hentered hloops)
    rw [h] at hknown hraised
    have hcarries := hknown.carries hd (hentered hloops) hloops.planned hraised.symm
    rw [hupdate] at hcarries
    exact hcarries
  have hcourse := d.segmentCourse sha256 call
  generalize d.writeSegmentMedia sha256 call = result at hcourse ⊢
  cases hcourse with
  | unread h =>
    refine carries_of_same hd (rewrites_of_not_entersLoop ?_) fun _ => rfl
    rcases h with h | h <;> simp [Directory.entersLoop, h]
  | blocked _ h =>
    refine carries_of_same hd (rewrites_of_not_entersLoop ?_) fun _ => rfl
    simp [Directory.entersLoop, h]
  | undirected _ _ h =>
    refine carries_of_same hd (rewrites_of_not_entersLoop ?_) fun _ => rfl
    simp [Directory.entersLoop, h]
  | unplanned _ _ _ h =>
    refine carries_of_same hd (fun part => ?_) fun _ => rfl
    simp [Directory.rewrites, h]
  | raised _ s h =>
    -- the exception leaves the files of the plans before it, and no document
    refine carries_of_same hd (fun part => ?_) fun part => by cases part <;> rfl
    rw [h] at hraised
    simp only [Directory.rewrites, ← hraised, Bool.not_true, Bool.and_false, Bool.false_and]
  | empty hloops s h hnone =>
    have hknown := @writePlans_known sha256 d hd call (hentered hloops)
    rw [h] at hknown
    exact ⟨_, call.now, hknown.nodup, hknown.covers, hknown.unseen,
      Or.inr ⟨hnone.2, fun part => by cases part <;> rfl⟩⟩
  | unwritten hloops s h d' hupdate => exact hwritten s true d' hloops h hupdate
  | written hloops s h d' hupdate => exact hwritten s false d' hloops h hupdate

/-- Documents of the store, with the time of an init call where it writes. -/
def Retimed (d d' : Directory) (call : InitMediaCall) : Prop :=
  (∀ part, ∀ document ∈ d'.document part, document.Recorded) ∧
    ∀ part n, d'.times part n = (d.times part n).map fun own =>
      (own.1, if d.rewrites (.initMedia call) part = true then call.now else own.2)

theorem times_of_not_rewrites {call : InitMediaCall} {part : Part}
    (hrewrites : d.rewrites (.initMedia call) part = false)
    (hsame : d'.document part = d.document part)
    (n : ℕ) : d'.times part n = (d.times part n).map fun own =>
      (own.1, if d.rewrites (.initMedia call) part = true then call.now else own.2) := by
  rw [Directory.times, hsame, ← Directory.times]
  simp only [hrewrites, Bool.false_eq_true, if_false]
  exact Option.map_id'.symm

theorem retimed_of_same (hd : Coherent d) {call : InitMediaCall}
    (hrewrites : ∀ part, d.rewrites (.initMedia call) part = false)
    (hsame : ∀ part, d'.document part = d.document part) : Retimed d d' call := by
  refine ⟨fun part document hdocument => ?_, fun part n => ?_⟩
  · rw [hsame] at hdocument
    exact hd.recorded part document hdocument
  · exact times_of_not_rewrites (hrewrites part) (hsame part) n

/-- The init writer brings the current time to the metadata. -/
theorem writeInitMedia_times (hd : Coherent d) (call : InitMediaCall) :
    Retimed d (d.writeInitMedia call) call := by
  rw [Directory.writeInitMedia]
  by_cases haccepted : d.initView.initAccepted call.call = false ∨ call.failsAt = some .rename
  · rw [if_pos haccepted]
    refine retimed_of_same hd (fun part => ?_) fun _ => rfl
    rcases haccepted with h | h <;> simp [Directory.rewrites, h]
  rw [if_neg haccepted]
  by_cases hsha256 : call.failsAt = some .writeSha256
  · rw [if_pos hsha256]
    refine retimed_of_same hd (fun part => ?_) fun part => by cases part <;> rfl
    simp [Directory.rewrites, hsha256]
  rw [if_neg hsha256]
  by_cases hwriteMetadata : call.failsAt = some .writeMetadata
  · rw [if_pos hwriteMetadata]
    refine retimed_of_same hd (fun part => ?_) fun part => by cases part <;> rfl
    simp [Directory.rewrites, hwriteMetadata]
  rw [if_neg hwriteMetadata]
  rw [not_or, Bool.not_eq_false] at haccepted
  have hnone : call.failsAt = none := by
    cases hfails : call.failsAt with
    | none => rfl
    | some operation =>
      rw [hfails] at haccepted hsha256 hwriteMetadata
      cases operation with
      | rename => exact absurd rfl haccepted.2
      | writeSha256 => exact absurd rfl hsha256
      | writeMetadata => exact absurd rfl hwriteMetadata
  -- all has been written, and of the documents the metadata
  constructor
  · intro part document hdocument
    cases part with
    | metadata =>
      obtain ⟨metadata, hmetadata, rfl⟩ := Option.map_eq_some_iff.1 hdocument
      exact recorded_applied
    | ranges => exact hd.recorded .ranges document hdocument
    | segments => exact hd.recorded .segments document hdocument
  · intro part n
    cases part with
    | metadata =>
      have hrewrites : d.rewrites (.initMedia call) .metadata = true := by
        simp [Directory.rewrites, haccepted.1, hnone]
      simp only [hrewrites, if_true, Directory.times, Directory.document]
      cases hmetadata : d.metadata with
      | none => rfl
      | some metadata =>
        obtain ⟨records, hrecords⟩ := hd.recorded .metadata metadata hmetadata
        have hplain : Document.RecordedAs { metadata with mediaBytesPresent := false }
          records := hrecords
        exact times_reapplied hplain
    | ranges =>
      have hrewrites : d.rewrites (.initMedia call) .ranges = false := by
        simp [Directory.rewrites]
      exact times_of_not_rewrites hrewrites rfl n
    | segments =>
      have hrewrites : d.rewrites (.initMedia call) .segments = false := by
        simp [Directory.rewrites]
      exact times_of_not_rewrites hrewrites rfl n

/-- **A call** leaves documents of the store, and keeps the first time of an index. Where it sees no
new conflict on the index, the last time in a document that it writes becomes its own, and stays in
others. -/
theorem call_times (hd : Coherent d) {call : Call} (hplain : call.Plain) :
    Coherent (d.call sha256 call).1 ∧ ∀ n part own, d.times part n = some own →
      (((d.call sha256 call).1.times part n).map Prod.fst = some own.1) ∧
        (d.sees sha256 n call = false → (d.call sha256 call).1.times part n =
          some (own.1, if d.rewrites call part = true then call.time else own.2)) := by
  have hcarried : Carries sha256 d (d.call sha256 call).1 call →
      Coherent (d.call sha256 call).1 ∧ ∀ n part own, d.times part n = some own →
        (((d.call sha256 call).1.times part n).map Prod.fst = some own.1) ∧
          (d.sees sha256 n call = false → (d.call sha256 call).1.times part n =
            some (own.1, if d.rewrites call part = true then call.time else own.2)) := fun h =>
    ⟨h.coherent hd, fun n part own hown => ⟨h.first hown, fun hsees => h.times hsees hown⟩⟩
  cases call with
  | storeMetadata call => exact hcarried (writeStoreMetadata_carries hd hplain)
  | segmentMedia call => exact hcarried (writeSegmentMedia_carries hd call)
  | initMedia call =>
    obtain ⟨hrecorded, htimes⟩ := writeInitMedia_times hd call
    have hown : ∀ n part own, (d.writeInitMedia call).times part n = some own →
        ∃ was, d.times part n = some was ∧ was.1 = own.1 := by
      intro n part own h
      rw [htimes] at h
      obtain ⟨was, hwas, rfl⟩ := Option.map_eq_some_iff.1 h
      exact ⟨was, hwas, rfl⟩
    refine ⟨⟨hrecorded, fun n part part' own own' h h' => ?_⟩, fun n part own h =>
      ⟨?_, fun _ => ?_⟩⟩
    · obtain ⟨was, hwas, hfirst⟩ := hown n part own h
      obtain ⟨was', hwas', hfirst'⟩ := hown n part' own' h'
      rw [← hfirst, ← hfirst']
      exact hd.first n part part' was was' hwas hwas'
    · show ((d.writeInitMedia call).times part n).map Prod.fst = some own.1
      rw [htimes, h]
      rfl
    · show (d.writeInitMedia call).times part n = _
      rw [htimes, h]
      rfl

end Calls

/-! ### Runs -/

theorem coherent_empty : Coherent .empty := by
  constructor
  · intro part document hdocument
    cases part <;> cases hdocument
  · intro n part part' times times' h
    cases part <;> cases h

section Runs

variable {sha256 : Bytes → String} {d d' : Directory}

theorem reach_coherent (hd : Coherent d) {ok : Directory → Call → Prop}
    (hok : ∀ s call, ok s call → call.Plain)
    (h : Reach (Directory.step sha256) ok d d') : Coherent d' := by
  refine Reach.invariant (P := Coherent) hd ?_ h
  intro s call s' _ hs hcall hstep
  cases hstep
  exact (call_times hs (hok s call hcall)).1

/-- The call leaves the document, or merges with the time that the index has in it. -/
def KeepsTime (n : ℕ) (part : Part) (d : Directory) (call : Call) : Prop :=
  d.rewrites call part = true → ∀ own ∈ d.times part n, call.time = own.2

/-- The call keeps the times exactly where that is so. -/
theorem call_times_iff (hd : Coherent d) {call : Call} (hplain : call.Plain) {n : ℕ}
    {part : Part} {own : Times}
    (hown : d.times part n = some own) (hsees : d.sees sha256 n call = false) :
    (d.call sha256 call).1.times part n = some own ↔ KeepsTime n part d call := by
  rw [((call_times hd hplain).2 n part own hown).2 hsees, Option.some_inj, KeepsTime]
  constructor
  · intro h hrewrites was hwas
    rw [hown] at hwas
    cases hwas
    rw [if_pos hrewrites] at h
    exact congrArg Prod.snd h
  · intro h
    by_cases hrewrites : d.rewrites call part = true
    · rw [if_pos hrewrites, h hrewrites own hown]
    · rw [if_neg hrewrites]

/-- A run of such calls keeps the times. -/
theorem reach_times (hd : Coherent d) {n : ℕ} {part : Part} {own : Times}
    (hown : d.times part n = some own) (h : Reach (Directory.step sha256)
      (fun s call => call.Plain ∧ s.sees sha256 n call = false ∧ KeepsTime n part s call) d d') :
    d'.times part n = some own := by
  have hboth : Coherent d' ∧ d'.times part n = some own := by
    refine Reach.invariant (P := fun s => Coherent s ∧ s.times part n = some own) ⟨hd, hown⟩ ?_ h
    rintro s call s' - ⟨hs, hsown⟩ ⟨hplain, hsees, hkeeps⟩ hstep
    cases hstep
    exact ⟨(call_times hs hplain).1, (call_times_iff hs hplain hsown hsees).2 hkeeps⟩
  exact hboth.2

end Runs

/-- **Evidence that is merged again** comes back as it is, by index, exactly where every last time
is that of the merge. After every run a call keeps the first time of an index in a document; where
it sees no new conflict on the index, it keeps both exactly where it leaves the document or merges
with the time that is there; and a run of such calls keeps them. -/
theorem remerge_unchanged_iff (sha256 : Bytes → String) (d₀ d : Directory) (hd₀ : Coherent d₀)
    (hreach : Reach (Directory.step sha256) (fun _ call => call.Plain) d₀ d) :
    (∀ (R : List ConflictRecord) (t now : Timestamp), (R.map ConflictRecord.index).Nodup →
      (mergeConflictRecords (stored R) (some t.1) now = byIndex R ↔ ∀ r ∈ R,
        r.lastConflictAt = t)) ∧
    ∀ n part own, d.times part n = some own →
      (∀ call : Call, call.Plain →
        ((d.call sha256 call).1.times part n).map Prod.fst = some own.1) ∧
      (∀ call : Call, call.Plain → d.sees sha256 n call = false →
        ((d.call sha256 call).1.times part n = some own ↔ KeepsTime n part d call)) ∧
      ∀ d', Reach (Directory.step sha256)
        (fun s call => call.Plain ∧ s.sees sha256 n call = false ∧ KeepsTime n part s call) d d' →
        d'.times part n = some own := by
  have hd : Coherent d := reach_coherent hd₀ (fun _ _ h => h) hreach
  refine ⟨fun R t now hR => merge_stored_iff hR, fun n part own hown => ⟨?_, ?_, ?_⟩⟩
  · intro call hplain
    exact ((call_times hd hplain).2 n part own hown).1
  · intro call hplain hsees
    exact call_times_iff hd hplain hown hsees
  · intro d' h
    exact reach_times hd hown h

/-- A later time of day. -/
def evening : Timestamp := ⟨"2026-01-01T18:00:00+00:00", by decide⟩

/-- The metadata of the store are written again in the evening. -/
def eveningMetadata : Call := .storeMetadata ⟨"contract", .blank, false, evening, evening, none⟩

theorem mixedWriters_times : ∃ d, runFrom (Directory.step plainDigest)
    .empty mixedWriters = some d ∧
    d.times .metadata 0 = some (noon, noon) ∧ d.sees plainDigest 0 eveningMetadata = false ∧
    (d.call plainDigest eveningMetadata).1.times .metadata 0 = some (noon, evening) := by
  have hrun : ((runFrom (Directory.step plainDigest) .empty mixedWriters).any fun d =>
      decide (d.times .metadata 0 = some (noon, noon) ∧
        d.sees plainDigest 0 eveningMetadata = false ∧
        (d.call plainDigest eveningMetadata).1.times .metadata 0 =
            some (noon, evening))) = true := by
    decide +kernel
  obtain ⟨d, hd, hall⟩ := (Option.any_eq_true _ _).1 hrun
  exact ⟨d, hd, of_decide_eq_true hall⟩

theorem remerge_unchanged_mixedWriters :
    ∃ d, runFrom (Directory.step plainDigest) .empty mixedWriters = some d ∧
      ((d.call plainDigest eveningMetadata).1.times .metadata 0).map Prod.fst = some noon := by
  obtain ⟨d, hd, hown, -⟩ := mixedWriters_times
  have hreach : Reach (Directory.step plainDigest) (fun _ call => call.Plain) .empty d := by
    refine reach_of_runFrom_of ?_ hd
    intro call hcall s
    simp only [mixedWriters, List.mem_cons, List.not_mem_nil, or_false] at hcall
    rcases hcall with rfl | rfl | rfl | rfl
    · exact ⟨rfl, rfl⟩
    · trivial
    · trivial
    · trivial
  exact ⟨d, hd, ((remerge_unchanged_iff plainDigest .empty d coherent_empty hreach).2 0
    .metadata _ hown).1 eveningMetadata ⟨rfl, rfl⟩⟩

/-- A record of noon that is merged again in the evening comes back with the evening as its last
time; so does the conflict of the first segment, when the metadata are written in the evening. -/
theorem remerged_in_the_evening :
    (∃ (R : List ConflictRecord) (t now : Timestamp), (R.map ConflictRecord.index).Nodup ∧
      mergeConflictRecords (stored R) (some t.1) now ≠ byIndex R) ∧
    ∃ d, runFrom (Directory.step plainDigest) .empty mixedWriters = some d ∧
      d.times .metadata 0 = some (noon, noon) ∧ d.sees plainDigest 0 eveningMetadata = false ∧
      (d.call plainDigest eveningMetadata).1.times .metadata 0 = some (noon, evening) := by
  refine ⟨⟨[⟨0, noon, noon, none, none, none, none⟩], evening, evening, by decide, ?_⟩,
    mixedWriters_times⟩
  rw [Ne, merge_stored_iff (by decide)]
  intro h
  have hlast := h _ List.mem_cons_self
  revert hlast
  decide

end SharedStore
