/-
The store of shared output (`route2_shared_output_store.py`), as far as its writers go.

A directory has a contract, three documents (`metadata.json`, `ranges.json`, `segments.json`), an
init file with its hash, and segment files. Calls run one after the other, and none raises. The
texts of a call are stripped; times, lengths and what is derived for serving are left out.

* `mergeContiguousRanges`, `mem_mergeContiguousRanges` — ranges are merged, and cover what they
  covered;
* `StoreDirectory.writeStoreMetadata`, `writeInitMedia`, `writeSegmentMedia` — the three writers;
* `Agree` — the documents agree on whether there are segments, and on which;
* `Careful` — a call that does not reset what the segments say;
* `documents_agree` — after runs of careful calls the documents agree;
* `init_resets_media_bytes` — an init file that is written again resets the flag of the metadata.
-/
import Mathlib.Data.Finset.Basic
import Mathlib.Data.List.Sort
import Mathlib.Data.Prod.Lex
import Mathlib.Logic.Function.Basic
import Mathlib.Tactic.Common
import Elvern.Runs

open Runs

namespace SharedOutput

/-! ### Ranges -/

/-- The first index, and the end. -/
abbrev IndexRange := ℕ × ℕ

def IndexRange.covers (r : IndexRange) (n : ℕ) : Prop := r.1 ≤ n ∧ n < r.2

/-- Tuples are sorted by their first components, then by their second. -/
def rangeLe (a b : IndexRange) : Bool := decide (a.1 < b.1 ∨ a.1 = b.1 ∧ a.2 ≤ b.2)

/-- The loop of `merge_contiguous_ranges`, with the current range. -/
def mergeFrom : IndexRange → List IndexRange → List IndexRange
  | current, [] => [current]
  | current, r :: rest =>
    if r.1 ≤ current.2 then mergeFrom (current.1, max current.2 r.2) rest
    else current :: mergeFrom r rest

/-- `merge_contiguous_ranges`; `none` where a range is empty. -/
def mergeContiguousRanges (ranges : List IndexRange) : Option (List IndexRange) :=
  if ranges.any fun r => decide (r.2 ≤ r.1) then none
  else
    match ranges.mergeSort rangeLe with
    | [] => some []
    | first :: rest => some (mergeFrom first rest)

section Merging

variable {ranges merged : List IndexRange} {n : ℕ}

/-- A merge covers what the ranges cover, if they come in the order of their starts. -/
theorem mem_mergeFrom {rest : List IndexRange} : ∀ {current : IndexRange},
    (∀ r ∈ rest, current.1 ≤ r.1) → rest.Pairwise (fun a b => a.1 ≤ b.1) →
    ((∃ r ∈ mergeFrom current rest, r.covers n) ↔ current.covers n ∨ ∃ r ∈ rest, r.covers n) := by
  induction rest with
  | nil =>
    intro current _ _
    simp [mergeFrom]
  | cons r rest ih =>
    intro current hstart hsorted
    obtain ⟨hfirst, hrest⟩ := List.pairwise_cons.1 hsorted
    have hle := hstart r (List.mem_cons_self ..)
    have htail : ∀ r' ∈ rest, current.1 ≤ r'.1 := fun r' hr' => hle.trans (hfirst r' hr')
    rw [mergeFrom, List.exists_mem_cons_iff]
    split_ifs with htouch
    · -- the range touches the current one
      rw [@ih (current.1, max current.2 r.2) htail hrest, ← or_assoc]
      refine or_congr_left ?_
      simp only [IndexRange.covers]
      omega
    · rw [List.exists_mem_cons_iff, ih hfirst hrest]

theorem rangeLe_sorted (ranges : List IndexRange) :
    (ranges.mergeSort rangeLe).Pairwise fun a b => a.1 ≤ b.1 := by
  refine (@List.pairwise_mergeSort _ rangeLe ?_ ?_ ranges).imp ?_
  · intro a b c hab hbc
    simp only [rangeLe, decide_eq_true_eq] at hab hbc ⊢
    omega
  · intro a b
    simp only [rangeLe, Bool.or_eq_true, decide_eq_true_eq]
    omega
  · intro a b hab
    simp only [rangeLe, decide_eq_true_eq] at hab
    omega

/-- **Merging** changes nothing of what is covered. -/
theorem mem_mergeContiguousRanges (h : mergeContiguousRanges ranges = some merged) :
    (∃ r ∈ merged, r.covers n) ↔ ∃ r ∈ ranges, r.covers n := by
  have hperm : (∃ r ∈ ranges.mergeSort rangeLe, r.covers n) ↔ ∃ r ∈ ranges, r.covers n := by
    simp only [List.mem_mergeSort]
  have hsorted := rangeLe_sorted ranges
  rw [mergeContiguousRanges] at h
  split_ifs at h
  rw [← hperm]
  split at h
  next hnil =>
    cases h
    rw [hnil]
  next first rest hcons =>
    cases h
    rw [hcons] at hsorted ⊢
    obtain ⟨hfirst, hrest⟩ := List.pairwise_cons.1 hsorted
    rw [mem_mergeFrom hfirst hrest, List.exists_mem_cons_iff]

theorem mergeFrom_lt {rest : List IndexRange} : ∀ {current : IndexRange}, current.1 < current.2 →
    (∀ r ∈ rest, r.1 < r.2) → ∀ r ∈ mergeFrom current rest, r.1 < r.2 := by
  induction rest with
  | nil =>
    intro current hcurrent _ r hr
    cases List.mem_singleton.1 hr
    exact hcurrent
  | cons q rest ih =>
    intro current hcurrent hrest r hr
    have hq := hrest q (List.mem_cons_self ..)
    have htail := fun r hr => hrest r (List.mem_cons_of_mem q hr)
    rw [mergeFrom] at hr
    split_ifs at hr
    · exact ih (lt_max_of_lt_left hcurrent) htail r hr
    · rcases List.mem_cons.1 hr with rfl | hr
      · exact hcurrent
      · exact ih hq htail r hr

/-- No range is empty. -/
theorem mergeContiguousRanges_lt (h : mergeContiguousRanges ranges = some merged) :
    ∀ r ∈ merged, r.1 < r.2 := by
  rw [mergeContiguousRanges] at h
  split_ifs at h with hempty
  have hall : ∀ r ∈ ranges.mergeSort rangeLe, r.1 < r.2 := by
    intro r hr
    by_contra hle
    exact hempty (List.any_eq_true.2 ⟨r, List.mem_mergeSort.1 hr, decide_eq_true (not_lt.1 hle)⟩)
  split at h
  next => cases h; exact fun r hr => absurd hr List.not_mem_nil
  next first rest hcons =>
    cases h
    rw [hcons] at hall
    exact mergeFrom_lt (hall first (List.mem_cons_self ..)) fun r hr =>
      hall r (List.mem_cons_of_mem _ hr)

end Merging

/-! ### The documents -/

inductive WriterPolicy
  | disabled
  | initWriterOnly
  | segmentWriterOnly
  deriving DecidableEq

/-- `metadata.json` -/
structure MetadataDocument where
  readyForSegments : Bool
  writerPolicy : WriterPolicy
  segmentWriterEnabled : Bool
  mediaBytesPresent : Bool
  initHashSha256 : Option String
  conflictIndexes : Finset ℕ

inductive RangeStatus
  | metadataOnly
  | mediaBytesPresent
  | empty
  deriving DecidableEq

/-- `ranges.json` -/
structure RangesDocument where
  rangeStatus : RangeStatus
  mediaBytesPresent : Bool
  confirmedRanges : List IndexRange
  sparseSegments : List ℕ
  conflictIndexes : Finset ℕ

/-- `segments.json`; a segment is its index and its hash. -/
structure SegmentsDocument where
  mediaBytesPresent : Bool
  segments : List (ℕ × String)
  conflictIndexes : Finset ℕ

structure StoreDirectory where
  /-- the contract without its times -/
  contract : Option String
  metadata : Option MetadataDocument
  ranges : Option RangesDocument
  segments : Option SegmentsDocument
  /-- the hash of `init.mp4`, and what `init.sha256` says -/
  initFile : Option String
  initSha256 : Option String
  segmentFiles : ℕ → Option String

def StoreDirectory.empty : StoreDirectory := ⟨none, none, none, none, none, none, fun _ => none⟩

/-- What `build_shared_output_metadata` builds. -/
def buildSharedOutputMetadata : MetadataDocument := ⟨false, .disabled, false, false, none, ∅⟩

namespace StoreDirectory

variable (d : StoreDirectory)

/-- The segments that are listed. -/
def listed : List (ℕ × String) := (d.segments.map SegmentsDocument.segments).getD []

/-- `_merge_conflict_records` of the documents -/
def conflicts : Finset ℕ :=
  (d.metadata.map MetadataDocument.conflictIndexes).getD ∅ ∪
    (d.ranges.map RangesDocument.conflictIndexes).getD ∅ ∪
    (d.segments.map SegmentsDocument.conflictIndexes).getD ∅

/-- `build_metadata_only_ranges_metadata` -/
def metadataOnlyRanges (ranges : List IndexRange) : Option RangesDocument :=
  (mergeContiguousRanges ranges).map fun merged => ⟨.metadataOnly, false, merged, [], ∅⟩

/-- The ranges that `write_shared_output_store_metadata` writes; `none` where it raises. -/
def updatedRanges (candidateRange : Option IndexRange) : Option RangesDocument :=
  let kept := (d.ranges.map RangesDocument.mediaBytesPresent).getD false
  let payload : RangesDocument := d.ranges.getD ⟨.metadataOnly, false, [], [], ∅⟩
  let updated :=
    match candidateRange with
    | some range => metadataOnlyRanges (payload.confirmedRanges ++ [range])
    | none =>
      if kept then some payload
      else some { payload with rangeStatus := .metadataOnly, mediaBytesPresent := false }
  updated.map fun ranges => { ranges with conflictIndexes := ranges.conflictIndexes ∪ d.conflicts }

/-- The contract is another one. -/
def contractConflict (contract : String) : Prop := ∃ existing ∈ d.contract, existing ≠ contract

instance (contract : String) : Decidable (d.contractConflict contract) := by
  unfold contractConflict
  infer_instance

/-- `write_shared_output_store_metadata` with the metadata that is built for it; `none` where it
fails with an exception. -/
def writeStoreMetadata (contract : String) (candidateRange : Option IndexRange) :
    Option StoreDirectory :=
  let built := buildSharedOutputMetadata
  let metadata : MetadataDocument :=
    if d.listed = [] then built
    else
      { built with
        mediaBytesPresent := true
        writerPolicy := .segmentWriterOnly
        readyForSegments := true }
  if d.contractConflict contract then some d
  else
    (d.updatedRanges candidateRange).map fun ranges =>
      { d with
        contract := some contract
        metadata := some { metadata with conflictIndexes := d.conflicts }
        ranges := some ranges }

end StoreDirectory

/-- What the init writer and the segment writer check first. -/
structure WriterChecks where
  writerEnabled : Bool
  outputContractFingerprint : String
  metadataReady : Bool
  contractStatus : String
  initCompatibilityStatus : String
  preconditionBlockers : List String

/-- The blockers that both writers make of them. -/
def WriterChecks.blockers (checks : WriterChecks) (pendingInit : String) : List String :=
  checks.preconditionBlockers ++
    (if checks.outputContractFingerprint = "" then ["missing_output_contract"] else []) ++
    (if checks.metadataReady then [] else ["shared_metadata_missing"]) ++
    (if checks.contractStatus = "conflict" then ["shared_contract_conflict"] else []) ++
    (if checks.initCompatibilityStatus = "mismatch" then ["init_mismatch"]
      else if checks.initCompatibilityStatus ∈ ["pending", "pending_init",
        "unavailable"] then [pendingInit]
      else if checks.initCompatibilityStatus ∉ ["hash_available", "compatible_by_hash"] then
        ["missing_init_compatibility"]
      else [])

def initHardBlockers : List String :=
  ["missing_shared_output_key", "missing_output_contract", "output_contract_incomplete",
    "shared_metadata_missing", "shared_contract_conflict", "init_mismatch", "pending_init",
    "missing_init_compatibility", "init_missing", "provider_access_unavailable"]

def segmentHardBlockers : List String :=
  ["missing_shared_output_key", "missing_output_contract", "output_contract_incomplete",
    "shared_metadata_missing", "shared_contract_conflict", "init_mismatch",
    "pending_init_compatibility", "missing_init_compatibility", "provider_access_unavailable",
    "permission_unverified", "permission_blocked", "stopped_or_expired_workload",
    "explicit_stop_requested", "shared_init_missing"]

/-- A call of `write_shared_output_init_media`. -/
structure InitCall where
  checks : WriterChecks
  /-- the hash of the source file, if there is one -/
  sourceInit : Option String
  expectedInitSha256 : String

/-- A plan of `write_shared_output_segment_media`. -/
structure SegmentPlan where
  index : ℕ
  /-- the hash of the source file, if there is one -/
  sourceSegment : Option String
  /-- `shared_store_write_blockers` without the soft ones -/
  hardBlockers : List String
  filenameMatches : Bool
  /-- copying or hashing fails -/
  fails : Bool

structure SegmentCall where
  checks : WriterChecks
  segmentPlans : List SegmentPlan

/-- What the loop over the plans works with. -/
structure SegmentWriting where
  files : ℕ → Option String
  records : List (ℕ × String)
  conflicts : Finset ℕ

/-- `segment_records[index] = …` -/
def putRecord (records : List (ℕ × String)) (index : ℕ) (hash : String) : List (ℕ × String) :=
  records.filter (·.1 ≠ index) ++ [(index, hash)]

/-- One plan. -/
def writeSegment (s : SegmentWriting) (plan : SegmentPlan) : SegmentWriting :=
  match plan.sourceSegment with
  | none => s
  | some staged =>
    if plan.hardBlockers ≠ [] ∨ plan.filenameMatches = false ∨ plan.fails = true then s
    else
      match s.files plan.index with
      | some final =>
        if final ≠ staged then { s with conflicts := insert plan.index s.conflicts }
        else { s with records := putRecord s.records plan.index final }
      | none =>
        { s with
          files := Function.update s.files plan.index (some staged)
          records := putRecord s.records plan.index staged }

namespace StoreDirectory

variable (d : StoreDirectory)

/-- The checks of an init call up to the update of the metadata: nothing blocks it, and its file is
the one that is there. -/
def initAccepted (call : InitCall) : Bool :=
  match call.sourceInit with
  | none => false
  | some staged =>
    call.checks.writerEnabled && (call.checks.blockers "pending_init").all (· ∉ initHardBlockers) &&
      d.metadata.isSome && decide (call.expectedInitSha256 = "" ∨
        call.expectedInitSha256 = staged) &&
      decide (∀ sha ∈ d.initSha256, sha = staged) && decide (∀ final ∈ d.initFile, final = staged)

/-- `write_shared_output_init_media` -/
def writeInitMedia (call : InitCall) : StoreDirectory :=
  if d.initAccepted call then
    { d with
      initFile := call.sourceInit
      initSha256 := call.sourceInit
      metadata := d.metadata.map fun metadata =>
        { metadata with
          initHashSha256 := call.sourceInit
          mediaBytesPresent := false
          segmentWriterEnabled := false
          writerPolicy := .initWriterOnly } }
  else d

/-- `_update_shared_segment_metadata`; `none` where it raises. -/
def updateSegmentMetadata (s : SegmentWriting) : Option StoreDirectory :=
  let ordered := s.records.mergeSort fun a b => decide (a.1 ≤ b.1)
  let present := !ordered.isEmpty
  let conflicts := d.conflicts ∪ s.conflicts
  let metadata := d.metadata.getD ⟨false, .disabled, false, false, none, ∅⟩
  (mergeContiguousRanges (ordered.map fun r => (r.1, r.1 + 1))).map fun merged =>
    { d with
      segmentFiles := s.files
      segments := some ⟨present, ordered, conflicts⟩
      ranges := some
        { rangeStatus := if merged.isEmpty then .empty else .mediaBytesPresent
          mediaBytesPresent := !merged.isEmpty
          confirmedRanges := merged
          sparseSegments := ordered.map Prod.fst
          conflictIndexes := conflicts }
      metadata := some
        { metadata with
          readyForSegments := true
          writerPolicy := .segmentWriterOnly
          segmentWriterEnabled := true
          mediaBytesPresent := present
          conflictIndexes := conflicts } }

/-- The segment writer does not come to its plans. -/
def segmentsBlocked (call : SegmentCall) : Bool :=
  let blockers := call.checks.blockers "pending_init_compatibility" ++
    (if d.metadata.isSome then [] else ["shared_metadata_missing"]) ++
    (if d.initFile.isSome && d.initSha256.isSome then [] else ["shared_init_missing"])
  !call.checks.writerEnabled || blockers.any (· ∈ segmentHardBlockers) || call.segmentPlans.isEmpty

/-- `write_shared_output_segment_media`; `none` where it fails with an exception. -/
def writeSegmentMedia (call : SegmentCall) : Option StoreDirectory :=
  if d.segmentsBlocked call then some d
  else
    let s := call.segmentPlans.foldl writeSegment ⟨d.segmentFiles, d.listed, d.conflicts⟩
    if s.records = [] ∧ s.conflicts = ∅ then some { d with segmentFiles := s.files }
    else d.updateSegmentMetadata s

end StoreDirectory

inductive Call
  | storeMetadata (contract : String) (candidateRange : Option IndexRange)
  | initMedia (call : InitCall)
  | segmentMedia (call : SegmentCall)

def StoreDirectory.step (d : StoreDirectory) : Call → Option StoreDirectory
  | .storeMetadata contract candidateRange => d.writeStoreMetadata contract candidateRange
  | .initMedia call => some (d.writeInitMedia call)
  | .segmentMedia call => d.writeSegmentMedia call

/-! ### The documents agree -/

/-- The flags say whether segments are listed, and then the ranges cover exactly their indexes. -/
structure Agree (d : StoreDirectory) : Prop where
  metadata : ∀ m ∈ d.metadata, (m.mediaBytesPresent = true ↔ d.listed ≠ [])
  ranges : ∀ r ∈ d.ranges, (r.mediaBytesPresent = true ↔ d.listed ≠ [])
  covered : ∀ r ∈ d.ranges, r.mediaBytesPresent = true → ∀ n,
    (∃ range ∈ r.confirmedRanges, range.covers n) ↔ n ∈ d.listed.map Prod.fst

/-- With segments there are ranges. -/
structure Kept (d : StoreDirectory) : Prop extends Agree d where
  present : d.listed ≠ [] → d.ranges.isSome = true

/-- Once segments are listed, no init file is accepted, and no candidate range comes with the store
metadata. -/
def Careful (d : StoreDirectory) : Call → Prop
  | .storeMetadata contract candidateRange =>
    d.listed = [] ∨ candidateRange = none ∨ d.contractConflict contract
  | .initMedia call => d.listed = [] ∨ d.initAccepted call = false
  | .segmentMedia _ => True

instance (d : StoreDirectory) (call : Call) : Decidable (Careful d call) := by
  cases call <;> unfold Careful <;> infer_instance

section Writers

variable {d d' : StoreDirectory}

theorem Kept.writeStoreMetadata (h : Kept d) {contract : String}
    {candidateRange : Option IndexRange} (hok : Careful d (.storeMetadata contract candidateRange))
    (hwrite : d.writeStoreMetadata contract candidateRange = some d') : Kept d' := by
  rw [StoreDirectory.writeStoreMetadata] at hwrite
  split_ifs at hwrite with hconflict hlisted
  · cases hwrite
    exact h
  all_goals
    obtain ⟨ranges, hranges, rfl⟩ := Option.map_eq_some_iff.1 hwrite
    obtain ⟨updated, hupdated, rfl⟩ := Option.map_eq_some_iff.1 hranges
  · -- no segment is listed, and whatever is written says so
    have hmedia : updated.mediaBytesPresent = false := by
      cases candidateRange with
      | some range =>
        obtain ⟨merged, -, rfl⟩ := Option.map_eq_some_iff.1 hupdated
        rfl
      | none =>
        dsimp only at hupdated
        split_ifs at hupdated with hkept
        · -- ranges with media bytes would list a segment
          obtain ⟨r, hr, hpresent⟩ : ∃ r ∈ d.ranges, r.mediaBytesPresent = true := by
            cases hr : d.ranges with
            | none =>
              rw [hr] at hkept
              cases hkept
            | some r =>
              rw [hr] at hkept
              exact ⟨r, rfl, hkept⟩
          exact absurd hlisted ((h.ranges r hr).1 hpresent)
        · cases hupdated
          rfl
    refine ⟨⟨fun m hm => ?_, fun r hr => ?_, fun r hr hpresent => ?_⟩, fun hne =>
      absurd hlisted hne⟩
    · cases Option.mem_some_iff.1 hm
      exact ⟨fun hno => (by cases hno), fun hne => absurd hlisted hne⟩
    · cases Option.mem_some_iff.1 hr
      exact ⟨fun hno => absurd (hmedia.symm.trans hno) Bool.false_ne_true, fun hne =>
        absurd hlisted hne⟩
    · cases Option.mem_some_iff.1 hr
      rw [hmedia] at hpresent
      cases hpresent
  · -- the ranges are kept
    have hnone : candidateRange = none := (hok.resolve_left hlisted).resolve_right hconflict
    subst hnone
    obtain ⟨r, hr⟩ := Option.isSome_iff_exists.1 (h.present hlisted)
    have hpresent := (h.ranges r hr).2 hlisted
    have heq : updated = r := by
      dsimp only at hupdated
      rw [hr, Option.map_some, Option.getD_some, if_pos hpresent] at hupdated
      exact (Option.some.inj hupdated).symm
    subst heq
    refine ⟨⟨fun m hm => ?_, fun q hq => ?_, fun q hq hq' => ?_⟩, fun _ => rfl⟩
    · cases Option.mem_some_iff.1 hm
      exact ⟨fun _ => hlisted, fun _ => rfl⟩
    · cases Option.mem_some_iff.1 hq
      exact h.ranges updated hr
    · cases Option.mem_some_iff.1 hq
      exact h.covered updated hr hpresent

theorem Kept.writeInitMedia (h : Kept d) {call : InitCall} (hok : Careful d (.initMedia call)) :
    Kept (d.writeInitMedia call) := by
  rw [StoreDirectory.writeInitMedia]
  split_ifs with haccepted
  · have hlisted : d.listed = [] := by
      refine hok.resolve_right fun hno => ?_
      rw [haccepted] at hno
      cases hno
    refine ⟨⟨fun m hm => ?_, h.ranges, h.covered⟩, h.present⟩
    obtain ⟨m', -, rfl⟩ := Option.map_eq_some_iff.1 (Option.mem_def.1 hm)
    exact ⟨fun hno => (by cases hno), fun hne => absurd hlisted hne⟩
  · exact h

/-- The documents after segments were written. -/
theorem updateSegmentMetadata_kept {s : SegmentWriting}
    (hwrite : d.updateSegmentMetadata s = some d') : Kept d' := by
  obtain ⟨merged, hmerged, rfl⟩ := Option.map_eq_some_iff.1 hwrite
  set ordered := s.records.mergeSort fun a b => decide (a.1 ≤ b.1) with hordered
  have hcovers : ∀ n, (∃ range ∈ merged, range.covers n) ↔ n ∈ ordered.map Prod.fst := by
    intro n
    rw [mem_mergeContiguousRanges hmerged]
    simp only [List.mem_map, exists_exists_and_eq_and, IndexRange.covers]
    refine exists_congr fun r => and_congr_right fun _ => ?_
    omega
  have hempty : merged = [] ↔ ordered = [] := by
    constructor
    · rintro rfl
      refine List.eq_nil_iff_forall_not_mem.2 fun r hr => ?_
      obtain ⟨_, hno, -⟩ := (hcovers r.1).2 (List.mem_map_of_mem hr)
      cases hno
    · intro hnil
      refine List.eq_nil_iff_forall_not_mem.2 fun r hr => ?_
      have hcovered := (hcovers r.1).1 ⟨r, hr, le_rfl, ?_⟩
      · rw [hnil] at hcovered
        cases hcovered
      · exact mergeContiguousRanges_lt hmerged r hr
  have hflag : (!ordered.isEmpty) = true ↔ ordered ≠ [] := by
    rw [Bool.not_eq_true', List.isEmpty_eq_false_iff]
  refine ⟨⟨fun m hm => ?_, fun r hr => ?_, fun r hr _ => ?_⟩, fun _ => rfl⟩
  · cases Option.mem_some_iff.1 hm
    exact hflag
  · cases Option.mem_some_iff.1 hr
    show (!merged.isEmpty) = true ↔ ordered ≠ []
    rw [Bool.not_eq_true', List.isEmpty_eq_false_iff]
    exact not_congr hempty
  · cases Option.mem_some_iff.1 hr
    exact hcovers

theorem Kept.writeSegmentMedia (h : Kept d) {call : SegmentCall}
    (hwrite : d.writeSegmentMedia call = some d') : Kept d' := by
  rw [StoreDirectory.writeSegmentMedia] at hwrite
  by_cases hblocked : d.segmentsBlocked call = true
  · rw [if_pos hblocked] at hwrite
    cases hwrite
    exact h
  rw [if_neg hblocked] at hwrite
  dsimp only at hwrite
  generalize call.segmentPlans.foldl writeSegment ⟨d.segmentFiles, d.listed,
    d.conflicts⟩ = s at hwrite
  by_cases hnothing : s.records = [] ∧ s.conflicts = ∅
  · rw [if_pos hnothing] at hwrite
    cases hwrite
    exact ⟨⟨h.metadata, h.ranges, h.covered⟩, h.present⟩
  · rw [if_neg hnothing] at hwrite
    exact updateSegmentMetadata_kept hwrite

/-- **One call** that is careful keeps the documents together. -/
theorem Kept.step (h : Kept d) {call : Call} (hok : Careful d call)
    (hstep : d.step call = some d') : Kept d' := by
  cases call with
  | storeMetadata contract candidateRange => exact h.writeStoreMetadata hok hstep
  | initMedia call =>
    cases hstep
    exact h.writeInitMedia hok
  | segmentMedia call => exact h.writeSegmentMedia hstep

end Writers

/-- After every run of careful calls the metadata and the ranges say whether segments are listed,
and if they are, the confirmed ranges cover exactly the indexes of the segments. -/
theorem documents_agree (d : StoreDirectory) (h : Reach StoreDirectory.step Careful .empty d) :
    (∀ m ∈ d.metadata, (m.mediaBytesPresent = true ↔ d.listed ≠ [])) ∧
    (∀ r ∈ d.ranges, (r.mediaBytesPresent = true ↔ d.listed ≠ [])) ∧
    ∀ r ∈ d.ranges, r.mediaBytesPresent = true → ∀ n,
      (∃ range ∈ r.confirmedRanges, range.covers n) ↔ n ∈ d.listed.map Prod.fst := by
  have hempty : Kept .empty :=
    ⟨⟨fun _ hm => (by cases hm), fun _ hr => (by cases hr), fun _ hr => (by cases hr)⟩,
      fun hne => absurd rfl hne⟩
  have hd : Kept d := Reach.invariant hempty (fun _ _ _ _ hs hok hstep => hs.step hok hstep) h
  exact ⟨hd.metadata, hd.ranges, hd.covered⟩

section Examples

def readyChecks : WriterChecks := ⟨true, "fingerprint", true, "updated", "compatible_by_hash", []⟩

def initCall : InitCall := ⟨readyChecks, some "init", ""⟩

def segmentCall (index : ℕ) : SegmentCall :=
  ⟨readyChecks, [⟨index, some "segment", [], true, false⟩]⟩

/-- The metadata, an init file and a segment are written. -/
def firstSegment : List Call :=
  [.storeMetadata "contract" none, .initMedia initCall, .segmentMedia (segmentCall 7)]

/-- What the metadata and the segments say after calls. -/
def flagAndSegments (d : StoreDirectory) : Option Bool × List (ℕ × String) :=
  (d.metadata.map MetadataDocument.mediaBytesPresent, d.listed)

theorem documents_agree_firstSegment :
    ∃ d, Reach StoreDirectory.step Careful .empty d ∧ flagAndSegments d =
      (some true, [(7, "segment")]) ∧
      ∀ r ∈ d.ranges, r.mediaBytesPresent = true → ∀ n,
        (∃ range ∈ r.confirmedRanges, range.covers n) ↔ n ∈ d.listed.map Prod.fst := by
  have hrun : (runFrom (guarded StoreDirectory.step fun d call => decide (Careful d call)) .empty
      firstSegment).map flagAndSegments = some (some true, [(7, "segment")]) := by decide +kernel
  obtain ⟨d, hd, hflag⟩ := Option.map_eq_some_iff.1 hrun
  have hreach := (reach_of_guarded (reach_of_runFrom hd)).mono fun _ _ => of_decide_eq_true
  exact ⟨d, hreach, hflag, (documents_agree d hreach).2.2⟩

/-- The init file is written again after a segment. -/
theorem init_resets_media_bytes :
    ∃ d, runFrom StoreDirectory.step .empty (firstSegment ++ [.initMedia initCall]) = some d ∧
      ¬ ∀ m ∈ d.metadata, (m.mediaBytesPresent = true ↔ d.listed ≠ []) := by
  have hrun : (runFrom StoreDirectory.step .empty (firstSegment ++ [.initMedia initCall])).map
      flagAndSegments = some (some false, [(7, "segment")]) := by decide +kernel
  obtain ⟨d, hd, hflag⟩ := Option.map_eq_some_iff.1 hrun
  obtain ⟨hmetadata, hlisted⟩ := Prod.mk.injEq .. |>.mp hflag
  obtain ⟨m, hm, hpresent⟩ := Option.map_eq_some_iff.1 hmetadata
  refine ⟨d, hd, fun hagree => ?_⟩
  have hset := (hagree m hm).2 (by rw [hlisted]; exact List.cons_ne_nil _ _)
  rw [hpresent] at hset
  cases hset

end Examples

end SharedOutput
