/-
From the segments of an epoch to the segments of the shared store
(`route2_shared_output_store.py`).

An epoch begins where the player jumped to, and numbers its segments from there; the
shared store numbers them from the start of the film.  A segment gets the index of the
boundary that is nearest to its start, and is shareable where its start and its end lie
within the tolerance of the boundaries of that index.

* `canonicalSegmentIndexCandidate`, `buildEpochRelativeSegmentMapping`,
  `buildSharedStoreWritePlan` -- the functions, with all that a plan says;
* `sub_eq_sub_of_near` -- near the boundaries, indexes differ as the starts do;
* `buildEpochRelativeSegmentMapping_spec` -- what an unblocked mapping is;
* `segments_mapped_apart` -- a plan gives its segments different indexes, and two plans
  that share an index share its time.
-/
import Mathlib.Tactic.Positivity
import Elvern.Exceptions
import Elvern.PyText
import Elvern.RangeAlgebra
import Elvern.SegmentFiles
import Elvern.WatchTime

open Progress SharedStore

namespace SharedOutput

/-! ### The boundary of a segment -/

/-- `SHARED_OUTPUT_MAPPING_TOLERANCE_SECONDS` -/
def mappingToleranceSeconds : ℚ := 1 / 1000

/-- `absolute_segment_index_from_seconds` -/
def absoluteSegmentIndexFromSeconds (timeSeconds segmentDurationSeconds : ℚ) :
    Except String ℕ := do
  let duration ← validateSegmentDuration segmentDurationSeconds
  return ⌊max 0 timeSeconds / duration⌋.toNat

/-- `_canonical_segment_index_candidate` -/
def canonicalSegmentIndexCandidate
    (absoluteSeconds segmentDurationSeconds toleranceSeconds : ℚ) : Except String (ℕ × Bool) := do
  let duration ← validateSegmentDuration segmentDurationSeconds
  let seconds := max 0 absoluteSeconds
  let nearestIndex := (roundHalfEven (seconds / duration)).toNat
  if |seconds - nearestIndex * duration| ≤ max 0 toleranceSeconds then
    return (nearestIndex, true)
  return (← absoluteSegmentIndexFromSeconds seconds duration, false)

/-- `sorted` of a set of strings. -/
def sortedSet (l : List String) : List String := l.dedup.mergeSort fun a b => decide (a ≤ b)

/-- What `build_epoch_relative_segment_mapping` returns. -/
structure SegmentMapping where
  epochId : String
  epochStartSeconds : ℚ
  epochRelativeSegmentIndex : ℕ
  epochRelativeStartSeconds : ℚ
  epochRelativeEndSeconds : ℚ
  absoluteStartSeconds : ℚ
  absoluteEndSeconds : ℚ
  absoluteSegmentIndexCandidate : ℕ
  expectedSharedSegmentFilename : String
  canonicalAlignmentStatus : String
  mappingConfidence : String
  mappingBlockers : List String

/-- The blockers that `build_epoch_relative_segment_mapping` finds. -/
def mappingBlockersOf (startAligned endAligned : Bool) (absoluteStartSeconds : ℚ)
    (targetPositionSeconds : Option ℚ) : List String :=
  (if !startAligned || !endAligned then ["non_canonical_segment_boundary"] else []) ++
    match targetPositionSeconds with
    | some target =>
      if absoluteStartSeconds < target then
        ["epoch_private_preroll", "preroll_not_shareable"] else []
    | none => []

/-- `build_epoch_relative_segment_mapping` -/
def buildEpochRelativeSegmentMapping (epochId : String) (epochStartSeconds : ℚ)
    (epochRelativeSegmentIndex : ℤ) (segmentDurationSeconds : ℚ)
    (targetPositionSeconds : Option ℚ) (toleranceSeconds : ℚ) : Except String SegmentMapping := do
  if epochRelativeSegmentIndex < 0 then
    throw "Epoch-relative segment index must be non-negative"
  let segmentIndex := epochRelativeSegmentIndex.toNat
  let duration ← validateSegmentDuration segmentDurationSeconds
  let epochStart := max 0 epochStartSeconds
  let relativeStart := round6 (segmentIndex * duration)
  let relativeEnd := round6 ((segmentIndex + 1) * duration)
  let absoluteStart := round6 (epochStart + relativeStart)
  let absoluteEnd := round6 (epochStart + relativeEnd)
  let (absoluteIndex, startAligned) ←
    canonicalSegmentIndexCandidate absoluteStart duration toleranceSeconds
  let expectedEnd := round6 ((absoluteIndex + 1) * duration)
  let endAligned := decide (|absoluteEnd - expectedEnd| ≤ max 0 toleranceSeconds)
  let blockers := mappingBlockersOf startAligned endAligned absoluteStart targetPositionSeconds
  return {
    epochId := epochId
    epochStartSeconds := round6 epochStart
    epochRelativeSegmentIndex := segmentIndex
    epochRelativeStartSeconds := relativeStart
    epochRelativeEndSeconds := relativeEnd
    absoluteStartSeconds := absoluteStart
    absoluteEndSeconds := absoluteEnd
    absoluteSegmentIndexCandidate := absoluteIndex
    expectedSharedSegmentFilename := sharedSegmentFilename absoluteIndex
    canonicalAlignmentStatus :=
      if "non_canonical_segment_boundary" ∈ blockers then "non_canonical_segment_boundary"
      else "aligned"
    mappingConfidence := if blockers = [] then "high" else "low"
    mappingBlockers := sortedSet blockers }

/-! ### The metadata of the ranges -/

/-- `SHARED_OUTPUT_STORE_METADATA_VERSION` -/
def storeMetadataVersion : String := "route2-shared-output-store-v1"

variable (uni : PyText.Unicode)

/-- The characters that `_SHARED_OUTPUT_KEY_RE` allows. -/
def keyCharacter (c : Char) : Bool := c.isAlphanum || ['.', '_', ':', '-'].contains c

/-- `validate_shared_output_key` -/
def validateSharedOutputKey (value : String) : Except String String :=
  let key := PyText.strip uni value
  if key = "" ∨ '/' ∈ key.toList ∨ '\\' ∈ key.toList ∨ ['.', '.'] <:+: key.toList then
    .error "Shared output key must be a safe path component"
  else if key.toList.all keyCharacter ∧ 8 ≤ key.length ∧ key.length ≤ 160 then .ok key
  else .error "Shared output key contains unsupported characters"

/-- What `build_ranges_metadata` and `add_confirmed_range` return. -/
structure RangesMetadata where
  version : String
  sharedOutputKey : String
  segmentDurationSeconds : ℚ
  confirmedRanges : List RangePayload
  sparseSegments : List ℕ
  updatedAt : String

/-- `sorted({max(0, int(value)) for value in values})` -/
def sortedIndices (values : List ℤ) : List ℕ :=
  (values.map Int.toNat).dedup.mergeSort fun a b => decide (a ≤ b)

/-- `build_ranges_metadata`; `now` is what `utcnow_iso` returns. -/
def buildRangesMetadata (sharedOutputKey : String) (segmentDurationSeconds : ℚ)
    (confirmedRanges : List (ℤ × ℤ)) (sparseSegments : List ℤ) (now : String) :
    Except String RangesMetadata := do
  return {
    version := storeMetadataVersion
    sharedOutputKey := ← validateSharedOutputKey uni sharedOutputKey
    segmentDurationSeconds := ← validateSegmentDuration segmentDurationSeconds
    confirmedRanges := ← mergeContiguous confirmedRanges segmentDurationSeconds "future"
    sparseSegments := sortedIndices sparseSegments
    updatedAt := now }

/-- `add_confirmed_range` -/
def addConfirmedRange (metadata : RangesMetadata) (startIndex endIndexExclusive : ℤ)
    (segmentDurationSeconds : Option ℚ) (source now : String) : Except String RangesMetadata := do
  let sharedOutputKey ← validateSharedOutputKey uni metadata.sharedOutputKey
  let duration ← validateSegmentDuration
    (segmentDurationSeconds.getD metadata.segmentDurationSeconds)
  let existing := metadata.confirmedRanges.map fun range =>
    ((range.startIndex : ℤ), (range.endIndexExclusive : ℤ))
  return {
    version := PyText.orElse metadata.version storeMetadataVersion
    sharedOutputKey := sharedOutputKey
    segmentDurationSeconds := duration
    confirmedRanges :=
      ← mergeContiguous (existing ++ [(startIndex, endIndexExclusive)]) duration source
    sparseSegments := sortedIndices (metadata.sparseSegments.map fun n : ℕ => (n : ℤ))
    updatedAt := now }

/-! ### The plan -/

/-- The arguments of `build_shared_store_write_plan`. -/
structure WritePlanRequest where
  route2Root : String
  sharedOutputKey : Option String
  epochId : String
  epochStartSeconds : ℚ
  targetPositionSeconds : Option ℚ
  publishedSegmentIndices : List ℤ
  segmentDurationSeconds : ℚ
  outputContractFingerprint : Option String
  outputContractMissingFields : List String
  initCompatibilityValidated : Bool
  initCompatibilityStatus : Option String
  permissionStatus : Option String
  metadataOnly : Bool
  segmentWriterEnabled : Bool
  sharedManifestEnabled : Bool

/-- An entry of `segment_plans`: the mapping, and what the plan adds to it. -/
structure MappedSegmentPlan extends SegmentMapping where
  sharedStoreWriteCandidate : Bool
  sharedStoreWriteBlockers : List String
  sharedOutputKey : Option String
  sharedOutputContractFingerprint : Option String
  expectedSharedOutputPath : Option String
  expectedSharedSegmentPath : Option String
  expectedInitPath : Option String

/-- `not segment_mapping_blockers` -/
def SegmentMapping.shareable (mapping : SegmentMapping) : Bool := mapping.mappingBlockers.isEmpty

/-- What `build_shared_store_write_plan` returns. -/
structure SharedStoreWritePlan where
  sharedStoreWritePlanAvailable : Bool
  sharedOutputKey : Option String
  sharedOutputContractFingerprint : Option String
  expectedSharedOutputPath : Option String
  expectedInitPath : Option String
  segmentPlans : List MappedSegmentPlan
  expectedRangesUpdate : Option RangesMetadata
  candidateRange : Option RangePayload
  candidateRangeSegmentCount : ℕ
  candidateRangeBlockers : List String
  sharedStoreWriteCandidateCount : ℕ
  sharedStoreWriteBlockers : List String
  sharedStoreMappingConfidence : String
  sharedStoreMappingNotes : List String

namespace WritePlanRequest

variable (request : WritePlanRequest)

/-- `sanitized_key`; a key that is missing or empty is not validated. -/
def sanitizedKey : Except String (Option String) :=
  match request.sharedOutputKey with
  | none => .ok none
  | some key => if key = "" then .ok none else (validateSharedOutputKey uni key).map some

/-- `segment_indices` -/
def segmentIndices : List ℕ := sortedIndices request.publishedSegmentIndices

/-- The blocker for the init segment: the status decides, and validation only where the
status is none of the known ones. -/
def initBlockers : List String :=
  let status := PyText.strip uni (request.initCompatibilityStatus.getD "")
  let compatible := request.initCompatibilityValidated ||
    ["hash_available", "compatible_by_hash"].contains status
  if status = "mismatch" then ["init_mismatch"]
  else if ["pending", "pending_init", "unavailable"].contains status then
    ["pending_init_compatibility"]
  else if compatible then [] else ["missing_init_compatibility"]

/-- The blockers that hold for every segment of the plan. -/
def blockers (key : Option String) : List String :=
  (if key.isNone then ["missing_shared_output_key"] else []) ++
  (if PyText.strip uni (request.outputContractFingerprint.getD "") = "" then
    ["missing_output_contract"] else []) ++
  (if request.outputContractMissingFields.isEmpty then [] else ["output_contract_incomplete"]) ++
  request.initBlockers uni ++
  (if [some "verified_local", some "verified_cloud"].contains request.permissionStatus then []
    else ["permission_context_unverified"]) ++
  (if request.metadataOnly then ["metadata_only"] else []) ++
  (if request.segmentWriterEnabled then [] else ["no_segment_writer"]) ++
  (if request.sharedManifestEnabled then [] else ["no_shared_manifest"]) ++
  (if request.metadataOnly || !request.segmentWriterEnabled then ["media_bytes_not_present"]
    else []) ++
  (if request.metadataOnly || !request.sharedManifestEnabled then ["serving_disabled"] else []) ++
  (if request.segmentIndices.isEmpty then ["no_published_segments"] else [])

/-- `notes` -/
def notes : List String :=
  "epoch_relative_to_absolute_mapping_candidate" ::
    if request.segmentWriterEnabled && !request.metadataOnly then
      ["write_only_segment_capture_candidate"]
    else ["dry_run_only", "no_shared_bytes_written"]

/-- `str(shared_output_directory(route2_root, key))` -/
def outputDirectory (key : String) : String := request.route2Root ++ "/shared_outputs/" ++ key

/-- One turn of the loop over the segments. -/
def segmentPlan (key : Option String) (segmentIndex : ℕ) : Except String MappedSegmentPlan := do
  let mapping ← buildEpochRelativeSegmentMapping request.epochId request.epochStartSeconds
    segmentIndex request.segmentDurationSeconds request.targetPositionSeconds
    mappingToleranceSeconds
  let segmentBlockers := request.blockers uni key ++ mapping.mappingBlockers
  let candidateBlockers :=
    if request.segmentWriterEnabled then
      segmentBlockers.filter fun b => !(["no_shared_manifest", "serving_disabled"].contains b)
    else segmentBlockers
  return { mapping with
    sharedStoreWriteCandidate := candidateBlockers.isEmpty
    sharedStoreWriteBlockers := sortedSet segmentBlockers
    sharedOutputKey := key
    sharedOutputContractFingerprint := request.outputContractFingerprint
    expectedSharedOutputPath := key.map request.outputDirectory
    expectedSharedSegmentPath := key.map fun key => request.outputDirectory key ++ "/segments/" ++
      sharedSegmentFilename mapping.absoluteSegmentIndexCandidate
    expectedInitPath := key.map fun key => request.outputDirectory key ++ "/init.mp4" }

/-- `expected_ranges_update` -/
def rangesUpdate (now : String) (key : Option String) (candidateRange : Option RangePayload) :
    Except String (Option RangesMetadata) := do
  match key, candidateRange with
  | some key, some range =>
    let metadata ← buildRangesMetadata uni key request.segmentDurationSeconds [] [] now
    return some (← addConfirmedRange uni metadata range.startIndex range.endIndexExclusive
      (some request.segmentDurationSeconds) "dry_run_candidate" now)
  | _, _ => return none

end WritePlanRequest

/-- `build_shared_store_write_plan` -/
def buildSharedStoreWritePlan (now : String) (request : WritePlanRequest) :
    Except String SharedStoreWritePlan := do
  let duration ← validateSegmentDuration request.segmentDurationSeconds
  let key ← request.sanitizedKey uni
  let segmentPlans ← request.segmentIndices.mapM (request.segmentPlan uni key)
  let shareableIndexCandidates := (segmentPlans.filter fun plan => plan.shareable).map fun plan =>
    plan.absoluteSegmentIndexCandidate
  let mappingBlockers := segmentPlans.flatMap fun plan => plan.mappingBlockers
  let candidateRanges ← mergeContiguous
    (shareableIndexCandidates.map fun index : ℕ => ((index : ℤ), (index : ℤ) + 1))
    duration "dry_run_candidate"
  let candidateRange := candidateRanges.head?
  let rangeBlockers := request.blockers uni key ++ mappingBlockers ++
    if candidateRange.isNone then ["no_shareable_segments"] else []
  return {
    sharedStoreWritePlanAvailable := key.isSome && !request.segmentIndices.isEmpty
    sharedOutputKey := key
    sharedOutputContractFingerprint := request.outputContractFingerprint
    expectedSharedOutputPath := key.map request.outputDirectory
    expectedInitPath := key.map fun key => request.outputDirectory key ++ "/init.mp4"
    segmentPlans := segmentPlans
    expectedRangesUpdate := ← request.rangesUpdate uni now key candidateRange
    candidateRange := candidateRange
    candidateRangeSegmentCount := (candidateRange.map RangePayload.segmentCount).getD 0
    candidateRangeBlockers := sortedSet rangeBlockers
    sharedStoreWriteCandidateCount := segmentPlans.countP fun plan => plan.sharedStoreWriteCandidate
    sharedStoreWriteBlockers := sortedSet rangeBlockers
    sharedStoreMappingConfidence :=
      if !mappingBlockers.isEmpty then "low"
      else if !request.segmentIndices.isEmpty then "high" else "unavailable"
    sharedStoreMappingNotes := sortedSet request.notes }

/-! ### Indexes near the boundaries -/

section Boundaries

variable {s t duration tolerance : ℚ}

/-- Two times near the boundaries of two indexes, a whole number of durations apart: the
indexes are as far apart. -/
theorem sub_eq_sub_of_near {a b i j : ℤ} (hduration : 2 * tolerance < duration)
    (hs : |s + i * duration - a * duration| ≤ tolerance)
    (ht : |s + j * duration - b * duration| ≤ tolerance) : b - a = j - i := by
  have htolerance : 0 ≤ tolerance := (abs_nonneg _).trans hs
  have hpos : 0 < duration := by linarith
  -- the two errors differ by a multiple of the duration that is less than the duration
  have hmultiple : |((b - a - (j - i) : ℤ) : ℚ) * duration| < 1 * duration := by
    calc |((b - a - (j - i) : ℤ) : ℚ) * duration|
        = |(s + i * duration - a * duration) - (s + j * duration - b * duration)| := by
          push_cast
          congr 1
          ring
      _ ≤ |s + i * duration - a * duration| + |s + j * duration - b * duration| := abs_sub _ _
      _ < 1 * duration := by linarith
  have hlt : |((b - a - (j - i) : ℤ) : ℚ)| < 1 := by
    rw [abs_mul, abs_of_pos hpos] at hmultiple
    exact lt_of_mul_lt_mul_right hmultiple hpos.le
  have hzero : b - a - (j - i) = 0 := Int.abs_lt_one_iff.1 (by exact_mod_cast hlt)
  omega

/-- Two times near one boundary. -/
theorem abs_sub_le_of_near {boundary : ℚ} (hs : |s - boundary| ≤ tolerance)
    (ht : |t - boundary| ≤ tolerance) : |s - t| ≤ 2 * tolerance := by
  calc |s - t| = |(s - boundary) - (t - boundary)| := by
        congr 1
        ring
    _ ≤ |s - boundary| + |t - boundary| := abs_sub _ _
    _ ≤ 2 * tolerance := by linarith

theorem validateSegmentDuration_eq_ok (h : 0 < duration) :
    validateSegmentDuration duration = .ok duration := by
  rw [validateSegmentDuration, if_neg (not_le.2 h)]

/-- The candidate is found, and an aligned time is near its boundary. -/
theorem canonicalSegmentIndexCandidate_spec (h : 0 < duration) (htolerance : 0 ≤ tolerance)
    (hs : 0 ≤ s) : ∃ index aligned,
      canonicalSegmentIndexCandidate s duration tolerance = .ok (index, aligned) ∧
      (aligned = true → |s - index * duration| ≤ tolerance) := by
  simp only [canonicalSegmentIndexCandidate, absoluteSegmentIndexFromSeconds,
    validateSegmentDuration_eq_ok h, max_eq_right hs, max_eq_right htolerance, bind, Except.bind]
  by_cases hnear : |s - (roundHalfEven (s / duration)).toNat * duration| ≤ tolerance
  · exact ⟨_, true, if_pos hnear, fun _ => hnear⟩
  · exact ⟨_, false, if_neg hnear, fun hfalse => absurd hfalse Bool.false_ne_true⟩

end Boundaries

/-! ### Six digits -/

/-- A time of six digits. -/
def SixDigits (x : ℚ) : Prop := ∃ n : ℕ, x = n / 1000000

section SixDigits

variable {x y : ℚ}

theorem SixDigits.round6_eq (h : SixDigits x) : round6 x = x := by
  obtain ⟨n, rfl⟩ := h
  have hwhole : (1000000 * (n / 1000000) : ℚ) = ((n : ℤ) : ℚ) := by
    push_cast
    ring
  rw [round6, hwhole, roundHalfEven_intCast, Int.cast_natCast]

theorem SixDigits.add (hx : SixDigits x) (hy : SixDigits y) : SixDigits (x + y) := by
  obtain ⟨n, rfl⟩ := hx
  obtain ⟨m, rfl⟩ := hy
  refine ⟨n + m, ?_⟩
  push_cast
  ring

theorem SixDigits.natCast_mul (hx : SixDigits x) (k : ℕ) : SixDigits (k * x) := by
  obtain ⟨n, rfl⟩ := hx
  refine ⟨k * n, ?_⟩
  push_cast
  ring

theorem SixDigits.nonneg (h : SixDigits x) : 0 ≤ x := by
  obtain ⟨n, rfl⟩ := h
  positivity

end SixDigits

/-! ### The mapping of a segment -/

theorem sortedSet_eq_nil {l : List String} : sortedSet l = [] ↔ l = [] := by
  constructor
  · intro h
    refine List.eq_nil_iff_forall_not_mem.2 fun a ha => ?_
    have hmem : a ∈ sortedSet l := List.mem_mergeSort.2 (List.mem_dedup.2 ha)
    rw [h] at hmem
    exact absurd hmem List.not_mem_nil
  · rintro rfl
    rw [sortedSet, List.dedup_nil, List.mergeSort_nil]

/-- Without blockers both ends are aligned, and the target is not after the start. -/
theorem mappingBlockersOf_eq_nil {startAligned endAligned : Bool} {absoluteStart : ℚ}
    {target : Option ℚ} (h : mappingBlockersOf startAligned endAligned absoluteStart target = []) :
    startAligned = true ∧ endAligned = true ∧ ∀ t ∈ target, t ≤ absoluteStart := by
  obtain ⟨haligned, htarget⟩ := List.append_eq_nil_iff.1 h
  refine ⟨?_, ?_, ?_⟩
  · cases startAligned with
    | true => rfl
    | false => exact absurd haligned (List.cons_ne_nil _ _)
  · cases endAligned with
    | true => rfl
    | false =>
      rw [Bool.not_false, Bool.or_true, if_pos rfl] at haligned
      exact absurd haligned (List.cons_ne_nil _ _)
  · rintro t rfl
    by_contra hlt
    simp only [if_pos (not_le.1 hlt)] at htarget
    exact absurd htarget (List.cons_ne_nil _ _)

/-- What the mapping of the segment `i` of an epoch says: where the segment lies, under
which name, and, unless there are blockers, that its index is the right one. -/
structure Maps (start duration : ℚ) (target : Option ℚ) (i : ℕ) (mapping : SegmentMapping) :
    Prop where
  relative : mapping.epochRelativeSegmentIndex = i
  absolute : mapping.absoluteStartSeconds = start + i * duration
  filename : mapping.expectedSharedSegmentFilename =
    sharedSegmentFilename mapping.absoluteSegmentIndexCandidate
  near : mapping.shareable → |start + i * duration -
    mapping.absoluteSegmentIndexCandidate * duration| ≤ mappingToleranceSeconds
  target : mapping.shareable → ∀ t ∈ target, t ≤ mapping.absoluteStartSeconds

theorem buildEpochRelativeSegmentMapping_spec {epochId : String} {start duration : ℚ}
    {target : Option ℚ} {i : ℕ} {mapping : SegmentMapping} (hpos : 0 < duration)
    (hduration : SixDigits duration) (hstart : SixDigits start)
    (h : buildEpochRelativeSegmentMapping epochId start i duration target
      mappingToleranceSeconds = .ok mapping) : Maps start duration target i mapping := by
  have hrelative : round6 (i * duration) = i * duration := (hduration.natCast_mul i).round6_eq
  have hdigits : SixDigits (start + i * duration) := hstart.add (hduration.natCast_mul i)
  obtain ⟨index, aligned, hcandidate, hnear⟩ := canonicalSegmentIndexCandidate_spec hpos
    (show (0 : ℚ) ≤ mappingToleranceSeconds by norm_num [mappingToleranceSeconds]) hdigits.nonneg
  -- the roundings are exact, so that the boundary is tested at the start itself
  rw [buildEpochRelativeSegmentMapping, if_neg (by omega)] at h
  simp only [validateSegmentDuration_eq_ok hpos, Int.toNat_natCast, max_eq_right hstart.nonneg,
    hrelative, hdigits.round6_eq, hcandidate, bind, Except.bind, pure, Except.pure] at h
  cases h
  refine ⟨rfl, rfl, rfl, fun hshareable => ?_, fun hshareable => ?_⟩
  · have hblockers := sortedSet_eq_nil.1 (List.isEmpty_iff.1 hshareable)
    exact hnear (mappingBlockersOf_eq_nil hblockers).1
  · have hblockers := sortedSet_eq_nil.1 (List.isEmpty_iff.1 hshareable)
    exact (mappingBlockersOf_eq_nil hblockers).2.2

/-! ### The segments of a plan -/

section Plans

variable {uni : PyText.Unicode} {now : String} {request : WritePlanRequest}
  {plan : SharedStoreWritePlan}

theorem nodup_sortedIndices (values : List ℤ) : (sortedIndices values).Nodup :=
  (List.mergeSort_perm _ _).nodup_iff.2 (List.nodup_dedup _)

/-- The plan holds the mapping of each published index, in their order. -/
theorem segmentPlans_maps (hpos : 0 < request.segmentDurationSeconds)
    (hduration : SixDigits request.segmentDurationSeconds)
    (hstart : SixDigits request.epochStartSeconds)
    (h : buildSharedStoreWritePlan uni now request = .ok plan) :
    List.Forall₂ (fun i entry => Maps request.epochStartSeconds request.segmentDurationSeconds
        request.targetPositionSeconds i entry.toSegmentMapping)
      request.segmentIndices plan.segmentPlans := by
  -- the loop has returned the entries, and each of them is a mapping that has returned
  obtain ⟨key, hplans⟩ : ∃ key,
      request.segmentIndices.mapM (request.segmentPlan uni key) = .ok plan.segmentPlans := by
    rw [buildSharedStoreWritePlan, Except.bind_eq_ok_iff] at h
    obtain ⟨duration, -, h⟩ := h
    obtain ⟨key, -, h⟩ := Except.bind_eq_ok_iff.1 h
    obtain ⟨plans, hplans, h⟩ := Except.bind_eq_ok_iff.1 h
    obtain ⟨ranges, -, h⟩ := Except.bind_eq_ok_iff.1 h
    obtain ⟨update, -, h⟩ := Except.bind_eq_ok_iff.1 h
    cases h
    exact ⟨key, hplans⟩
  refine (Except.forall₂_of_mapM_eq_ok hplans).imp fun i entry hentry => ?_
  rw [WritePlanRequest.segmentPlan, Except.bind_eq_ok_iff] at hentry
  obtain ⟨mapping, hmapping, hentry⟩ := hentry
  cases hentry
  exact buildEpochRelativeSegmentMapping_spec hpos hduration hstart hmapping

/-- The relative indexes of the entries are the published indexes. -/
theorem map_relative {start duration : ℚ} {target : Option ℚ} {l : List ℕ}
    {l' : List MappedSegmentPlan}
    (h : List.Forall₂ (fun i entry => Maps start duration target i entry.toSegmentMapping) l l') :
    (l'.map fun entry => entry.epochRelativeSegmentIndex) = l := by
  induction h with
  | nil => rfl
  | cons hentry _ ih => rw [List.map_cons, ih, hentry.relative]

theorem forall_maps {start duration : ℚ} {target : Option ℚ} {l : List ℕ}
    {l' : List MappedSegmentPlan}
    (h : List.Forall₂ (fun i entry => Maps start duration target i entry.toSegmentMapping) l l') :
    ∀ entry ∈ l', Maps start duration target entry.epochRelativeSegmentIndex
      entry.toSegmentMapping := by
  induction h with
  | nil => exact fun entry hentry => absurd hentry List.not_mem_nil
  | cons hfirst _ ih =>
    intro entry hentry
    rcases List.mem_cons.1 hentry with rfl | hrest
    · rw [hfirst.relative]
      exact hfirst
    · exact ih entry hrest

/-- Shareable segments of one epoch have indexes that differ as the relative ones do. -/
theorem Maps.sub_eq_sub {start duration : ℚ} {target : Option ℚ} {i j : ℕ}
    {first second : SegmentMapping} (hduration : 2 * mappingToleranceSeconds < duration)
    (hfirst : Maps start duration target i first) (hsecond : Maps start duration target j second)
    (hshareable : first.shareable) (hshareable' : second.shareable) :
    (second.absoluteSegmentIndexCandidate : ℤ) - first.absoluteSegmentIndexCandidate = j - i := by
  refine sub_eq_sub_of_near hduration (s := start) ?_ ?_
  · exact_mod_cast hfirst.near hshareable
  · exact_mod_cast hsecond.near hshareable'

end Plans

/-- **Epoch segments map to shared segments without collision.**  In a plan for an epoch
whose start and segment duration have six digits, with segments longer than twice the
tolerance, the shareable segments have different indexes and file names, their indexes
differ as their places in the epoch do, and none starts before the target; and where the
plan of another epoch gives a shareable segment the same index, the two start at the same
time, up to twice the tolerance. -/
theorem segments_mapped_apart (uni : PyText.Unicode) (now : String) (request : WritePlanRequest)
    (plan : SharedStoreWritePlan)
    (hduration : 2 * mappingToleranceSeconds < request.segmentDurationSeconds)
    (hdigits : SixDigits request.segmentDurationSeconds)
    (hstart : SixDigits request.epochStartSeconds)
    (hplan : buildSharedStoreWritePlan uni now request = .ok plan) :
    (plan.segmentPlans.map fun entry => entry.epochRelativeSegmentIndex) =
        request.segmentIndices ∧
      ((plan.segmentPlans.filter fun entry => entry.shareable).map fun entry =>
        entry.absoluteSegmentIndexCandidate).Nodup ∧
      ((plan.segmentPlans.filter fun entry => entry.shareable).map fun entry =>
        entry.expectedSharedSegmentFilename).Nodup ∧
      (∀ first ∈ plan.segmentPlans, first.shareable → ∀ second ∈ plan.segmentPlans,
        second.shareable →
          (second.absoluteSegmentIndexCandidate : ℤ) - first.absoluteSegmentIndexCandidate =
            second.epochRelativeSegmentIndex - first.epochRelativeSegmentIndex) ∧
      (∀ entry ∈ plan.segmentPlans, entry.shareable → ∀ target ∈ request.targetPositionSeconds,
        target ≤ entry.absoluteStartSeconds) ∧
      ∀ (now' : String) (other : WritePlanRequest) (otherPlan : SharedStoreWritePlan),
        other.segmentDurationSeconds = request.segmentDurationSeconds →
        SixDigits other.epochStartSeconds →
        buildSharedStoreWritePlan uni now' other = .ok otherPlan →
        ∀ first ∈ plan.segmentPlans, first.shareable → ∀ second ∈ otherPlan.segmentPlans,
          second.shareable →
          first.absoluteSegmentIndexCandidate = second.absoluteSegmentIndexCandidate →
          |first.absoluteStartSeconds - second.absoluteStartSeconds| ≤
            2 * mappingToleranceSeconds := by
  have hpos : 0 < request.segmentDurationSeconds := by
    have htolerance : (0 : ℚ) < mappingToleranceSeconds := by norm_num [mappingToleranceSeconds]
    linarith
  have hentries := segmentPlans_maps hpos hdigits hstart hplan
  have hrelative := map_relative hentries
  have hmaps := forall_maps hentries
  have hdiffer : ∀ first ∈ plan.segmentPlans, first.shareable → ∀ second ∈ plan.segmentPlans,
      second.shareable →
        (second.absoluteSegmentIndexCandidate : ℤ) - first.absoluteSegmentIndexCandidate =
          second.epochRelativeSegmentIndex - first.epochRelativeSegmentIndex :=
    fun first hfirst hshareable second hsecond hshareable' =>
      (hmaps first hfirst).sub_eq_sub hduration (hmaps second hsecond) hshareable hshareable'
  -- the relative indexes of the shareable entries are distinct, hence the absolute ones
  have hindexes : ((plan.segmentPlans.filter fun entry => entry.shareable).map fun entry =>
      entry.absoluteSegmentIndexCandidate).Nodup := by
    have hnodup : (plan.segmentPlans.map fun entry => entry.epochRelativeSegmentIndex).Nodup := by
      rw [hrelative]
      exact nodup_sortedIndices _
    refine List.pairwise_map.2 (((List.pairwise_map.1 hnodup).sublist
      List.filter_sublist).imp_of_mem fun {first second} hfirst hsecond hne heq => hne ?_)
    obtain ⟨hfirst, hshareable⟩ := List.mem_filter.1 hfirst
    obtain ⟨hsecond, hshareable'⟩ := List.mem_filter.1 hsecond
    have hsub := hdiffer first hfirst hshareable second hsecond hshareable'
    omega
  have hfilenames : ((plan.segmentPlans.filter fun entry => entry.shareable).map fun entry =>
      entry.expectedSharedSegmentFilename) =
      ((plan.segmentPlans.filter fun entry => entry.shareable).map fun entry =>
        entry.absoluteSegmentIndexCandidate).map sharedSegmentFilename := by
    rw [List.map_map]
    exact List.map_congr_left fun entry hentry =>
      (hmaps entry (List.mem_filter.1 hentry).1).filename
  refine ⟨hrelative, hindexes, ?_, hdiffer, ?_, ?_⟩
  · rw [hfilenames]
    exact hindexes.map sharedSegmentFilename_injective
  · exact fun entry hentry hshareable => (hmaps entry hentry).target hshareable
  · intro now' other otherPlan hsame hstart' hother first hfirst hshareable second hsecond
      hshareable' heq
    have hmaps' := forall_maps (segmentPlans_maps (hsame ▸ hpos) (hsame ▸ hdigits) hstart' hother)
    have hnear := (hmaps first hfirst).near hshareable
    have hnear' := (hmaps' second hsecond).near hshareable'
    rw [← (hmaps first hfirst).absolute] at hnear
    rw [← (hmaps' second hsecond).absolute, ← heq, hsame] at hnear'
    exact abs_sub_le_of_near hnear hnear'

/-- An epoch that has published segments of two seconds. -/
def epochAt (epochStartSeconds : ℚ) (indices : List ℤ) : WritePlanRequest where
  route2Root := "browser_playback_route2"
  sharedOutputKey := none
  epochId := "epoch"
  epochStartSeconds := epochStartSeconds
  targetPositionSeconds := some epochStartSeconds
  publishedSegmentIndices := indices
  segmentDurationSeconds := 2
  outputContractFingerprint := some "fingerprint"
  outputContractMissingFields := []
  initCompatibilityValidated := true
  initCompatibilityStatus := none
  permissionStatus := some "verified_local"
  metadataOnly := false
  segmentWriterEnabled := true
  sharedManifestEnabled := false

/-- The indexes that a plan gives to its shareable segments. -/
def SharedStoreWritePlan.shareableIndexes (plan : SharedStoreWritePlan) : List ℕ :=
  (plan.segmentPlans.filter fun entry => entry.shareable).map fun entry =>
    entry.absoluteSegmentIndexCandidate

/-- Without a key, a plan is made where the mappings of its segments are. -/
theorem exists_plan {uni : PyText.Unicode} {now : String} {request : WritePlanRequest}
    {plans : List MappedSegmentPlan} (hkey : request.sharedOutputKey = none)
    (hduration : 0 < request.segmentDurationSeconds)
    (hplans : request.segmentIndices.mapM (request.segmentPlan uni none) = .ok plans) :
    ∃ plan, buildSharedStoreWritePlan uni now request = .ok plan ∧ plan.segmentPlans = plans := by
  have hvalid : validateSegmentDuration request.segmentDurationSeconds =
      .ok request.segmentDurationSeconds := if_neg (not_le.2 hduration)
  have hsanitized : request.sanitizedKey uni = .ok none := by
    rw [WritePlanRequest.sanitizedKey, hkey]
  have haccepted : ∀ indexes : List ℕ,
      Accepted (indexes.map fun index : ℕ => ((index : ℤ), (index : ℤ) + 1)) := by
    intro indexes value hvalue
    obtain ⟨index, -, rfl⟩ := List.mem_map.1 hvalue
    exact ⟨_, coerceRangeIndexes_eq_ok.2 ⟨Int.natCast_nonneg index, Int.lt_succ _, rfl⟩⟩
  exact ⟨_, Except.bind_eq_ok_iff.2 ⟨_, hvalid, Except.bind_eq_ok_iff.2 ⟨_, hsanitized,
    Except.bind_eq_ok_iff.2 ⟨_, hplans, Except.bind_eq_ok_iff.2
      ⟨_, mergeContiguous_eq (haccepted _) hduration _, rfl⟩⟩⟩⟩, rfl⟩

/-- The plan of two neighbouring segments that can be shared. -/
theorem exists_plan_epochAt {epochStartSeconds : ℚ} {i k : ℕ}
    (hfirst : ((epochAt epochStartSeconds [i, i + 1]).segmentPlan .ascii none i).toOption.any
      fun entry => entry.shareable && entry.absoluteSegmentIndexCandidate == k)
    (hsecond : ((epochAt epochStartSeconds [i, i + 1]).segmentPlan .ascii none (i + 1)).toOption.any
      fun entry => entry.shareable && entry.absoluteSegmentIndexCandidate == k + 1) :
    ∃ plan, buildSharedStoreWritePlan .ascii "now" (epochAt epochStartSeconds [i,
      i + 1]) = .ok plan ∧ plan.shareableIndexes = [k, k + 1] := by
  obtain ⟨first, hfirstPlan, hfirst⟩ := (Option.any_eq_true _ _).1 hfirst
  obtain ⟨second, hsecondPlan, hsecond⟩ := (Option.any_eq_true _ _).1 hsecond
  rw [Bool.and_eq_true, beq_iff_eq] at hfirst hsecond
  have hindices : (epochAt epochStartSeconds [i, i + 1]).segmentIndices = [i, i + 1] := by
    have hnodup : [i, i + 1].Nodup := by simp
    show ([(i : ℤ), (i : ℤ) + 1].map Int.toNat).dedup.mergeSort _ = _
    rw [show [(i : ℤ), (i : ℤ) + 1].map Int.toNat = [i, i + 1] from rfl, hnodup.dedup]
    exact List.mergeSort_of_pairwise (by simp)
  have htwo : (0 : ℚ) < 2 := by decide +kernel
  obtain ⟨plan, hplan, hplans⟩ := @exists_plan .ascii "now" (epochAt epochStartSeconds [i, i + 1])
    [first, second] rfl htwo (by
    rw [hindices, List.mapM_cons, Except.toOption_eq_some_iff.1 hfirstPlan, List.mapM_cons,
      Except.toOption_eq_some_iff.1 hsecondPlan]
    rfl)
  refine ⟨plan, hplan, ?_⟩
  simp [SharedStoreWritePlan.shareableIndexes, hplans, hfirst, hsecond]

/-- Two epochs, one of which starts half a millisecond late, write the segments 15 and 16. -/
theorem segments_mapped_apart_twoEpochs :
    ∃ plan other : SharedStoreWritePlan, plan.shareableIndexes = [15, 16] ∧
      other.shareableIndexes = [15, 16] ∧ plan.shareableIndexes.Nodup ∧
      (∀ first ∈ plan.segmentPlans, first.shareable → ∀ second ∈ plan.segmentPlans,
        second.shareable →
          (second.absoluteSegmentIndexCandidate : ℤ) - first.absoluteSegmentIndexCandidate =
            second.epochRelativeSegmentIndex - first.epochRelativeSegmentIndex) ∧
      ∀ first ∈ plan.segmentPlans, first.shareable → ∀ second ∈ other.segmentPlans,
        second.shareable →
        first.absoluteSegmentIndexCandidate = second.absoluteSegmentIndexCandidate →
        |first.absoluteStartSeconds - second.absoluteStartSeconds| ≤
          2 * mappingToleranceSeconds := by
  obtain ⟨plan, hplan, hplanIndexes⟩ := @exists_plan_epochAt 20 5 15 (by decide +kernel)
    (by decide +kernel)
  obtain ⟨other, hother, hotherIndexes⟩ :=
    @exists_plan_epochAt (300005 / 10000) 0 15 (by decide +kernel) (by decide +kernel)
  have hdigits : SixDigits (2 : ℚ) := ⟨2000000, by norm_num⟩
  have htwo : 2 * mappingToleranceSeconds < (2 : ℚ) := by norm_num [mappingToleranceSeconds]
  obtain ⟨-, hapart, -, hdiffer, -, hagree⟩ :=
    segments_mapped_apart .ascii "now" (epochAt 20 [5, 5 + 1])
    plan htwo hdigits ⟨20000000, by norm_num [epochAt]⟩ hplan
  exact ⟨plan, other, hplanIndexes, hotherIndexes, hapart, hdiffer,
    hagree "now" (epochAt (300005 / 10000) [0, 0 + 1]) other rfl
      ⟨30000500, by norm_num [epochAt]⟩ hother⟩

end SharedOutput
