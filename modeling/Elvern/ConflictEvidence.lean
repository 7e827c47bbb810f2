/-
The evidence of conflicts in the store of shared output (`route2_shared_output_store.py`).

A document of the store lists each conflict twice, as a record with its times and hashes and as a
bare index; merging reads both.

* `normalizeConflictRecord`, `mergeConflictRecords` — a record of whatever is found, and one record
  an index;
* `mem_mergeConflictRecords` — merging forgets no index and adds none;
* `mergeConflictRecords_stored` — stored evidence that is merged again gets the time of the merge;
* `merge_stored_iff` — it comes back unchanged if and only if that is the time it already has.
-/
import Mathlib.Data.List.Nodup
import Mathlib.Data.List.Sort
import Mathlib.Tactic.Common

namespace ConflictEvidence

/-! ### Records -/

/-- A time as the store writes it; an empty text counts as none. -/
abbrev Timestamp := { text : String // text ≠ "" }

structure ConflictRecord where
  index : ℕ
  firstConflictAt : Timestamp
  lastConflictAt : Timestamp
  existingSha256 : Option String
  candidateSha256 : Option String
  existingSizeBytes : Option ℕ
  candidateSizeBytes : Option ℕ
  deriving DecidableEq

/-- What is found in a document: a mapping, or something else; the index is `none` where `int`
raises. -/
inductive RawConflict
  | mapping (index : Option ℤ) (firstConflictAt lastConflictAt detectedAt : Option String)
      (existingSha256 candidateSha256 : Option String)
        (existingSizeBytes candidateSizeBytes : Option ℕ)
  | bare (index : Option ℤ)
  deriving DecidableEq

/-- A text that is not empty. -/
def truthy : Option String → Option Timestamp
  | none => none
  | some text => if h : text ≠ "" then some ⟨text, h⟩ else none

/-- `_normalize_conflict_record`, where `utcnow_iso()` gives `now`. -/
def normalizeConflictRecord (updatedAt : Option String) (now : Timestamp) :
    RawConflict → Option ConflictRecord
  | .mapping index firstAt lastAt detectedAt existingSha candidateSha existingSize candidateSize =>
    index.map fun i =>
      let firstConflictAt :=
        ((truthy firstAt <|> truthy detectedAt) <|> truthy updatedAt).getD now
      { index := i.toNat
        firstConflictAt := firstConflictAt
        lastConflictAt :=
          ((truthy lastAt <|> truthy detectedAt) <|> truthy updatedAt).getD firstConflictAt
        existingSha256 := existingSha
        candidateSha256 := candidateSha
        existingSizeBytes := existingSize
        candidateSizeBytes := candidateSize }
  | .bare index =>
    index.map fun i =>
      let timestamp := (truthy updatedAt).getD now
      ⟨i.toNat, timestamp, timestamp, none, none, none, none⟩

namespace ConflictRecord

variable (existing record : ConflictRecord)

/-- A later record of the same index: its time is never empty, and what it has replaces what there
is. -/
def update : ConflictRecord :=
  { existing with
    lastConflictAt := record.lastConflictAt
    existingSha256 := record.existingSha256 <|> existing.existingSha256
    candidateSha256 := record.candidateSha256 <|> existing.candidateSha256
    existingSizeBytes := record.existingSizeBytes <|> existing.existingSizeBytes
    candidateSizeBytes := record.candidateSizeBytes <|> existing.candidateSizeBytes }

/-- The record as it is found in a document. -/
def raw : RawConflict :=
  .mapping (some existing.index) (some existing.firstConflictAt) (some existing.lastConflictAt) none
    existing.existingSha256 existing.candidateSha256 existing.existingSizeBytes
    existing.candidateSizeBytes

end ConflictRecord

/-- An index as it is found in a document. -/
def rawIndex (index : ℕ) : RawConflict := .bare (some index)

/-- One round of the loop over the raw records. -/
def absorb (merged : List ConflictRecord) (record : ConflictRecord) : List ConflictRecord :=
  if merged.any fun existing => decide (existing.index = record.index) then
    merged.map fun existing => if existing.index = record.index then
      existing.update record else existing
  else merged ++ [record]

def byIndex (records : List ConflictRecord) : List ConflictRecord :=
  records.mergeSort fun a b => decide (a.index ≤ b.index)

/-- `_merge_conflict_records` -/
def mergeConflictRecords (raws : List RawConflict) (updatedAt : Option String) (now : Timestamp) :
    List ConflictRecord :=
  byIndex ((raws.filterMap (normalizeConflictRecord updatedAt now)).foldl absorb [])

/-- The index that a raw record is about. -/
def RawConflict.index? : RawConflict → Option ℕ
  | .mapping index .. => index.map Int.toNat
  | .bare index => index.map Int.toNat

/-! ### Merging keeps the indexes -/

section Merging

variable {merged records : List ConflictRecord} {raws : List RawConflict}
  {updatedAt : Option String} {now t : Timestamp} {n : ℕ} {r : ConflictRecord}

theorem normalize_index (raw : RawConflict) :
    (normalizeConflictRecord updatedAt now raw).map ConflictRecord.index = raw.index? := by
  cases raw with
  | mapping index =>
    cases index with
    | none => rfl
    | some i => rfl
  | bare index =>
    cases index with
    | none => rfl
    | some i => rfl

theorem truthy_some (t : Timestamp) : truthy (some t) = some t := by
  rw [truthy, dif_pos t.2]

/-- What has been normalized once stays as it is. -/
theorem normalize_raw (r : ConflictRecord) :
    normalizeConflictRecord updatedAt now r.raw = some r := by
  simp only [ConflictRecord.raw, normalizeConflictRecord, truthy_some]
  rfl

theorem normalize_rawIndex (index : ℕ) : normalizeConflictRecord (some t.1) now (rawIndex index) =
    some ⟨index, t, t, none, none, none, none⟩ := by
  simp only [rawIndex, normalizeConflictRecord, truthy_some]
  rfl

@[simp] theorem index?_raw (r : ConflictRecord) : r.raw.index? = some r.index := rfl

@[simp] theorem index?_rawIndex (index : ℕ) : (rawIndex index).index? = some index := rfl

theorem absorb_indexes (merged : List ConflictRecord) (record : ConflictRecord) :
    (absorb merged record).map ConflictRecord.index =
      if record.index ∈ merged.map ConflictRecord.index then merged.map ConflictRecord.index
      else merged.map ConflictRecord.index ++ [record.index] := by
  have hany : (merged.any fun existing => decide (existing.index = record.index)) = true ↔
      record.index ∈ merged.map ConflictRecord.index := by
    simp [List.any_eq_true, List.mem_map]
  rw [absorb]
  by_cases hmem : record.index ∈ merged.map ConflictRecord.index
  · rw [if_pos (hany.2 hmem), if_pos hmem, List.map_map]
    refine List.map_congr_left fun existing _ => ?_
    simp only [Function.comp]
    split_ifs <;> rfl
  · rw [if_neg fun h => hmem (hany.1 h), if_neg hmem, List.map_append]
    rfl

theorem mem_foldl_absorb : n ∈ (records.foldl absorb merged).map ConflictRecord.index ↔
    n ∈ merged.map ConflictRecord.index ∨ n ∈ records.map ConflictRecord.index := by
  induction records generalizing merged with
  | nil => simp
  | cons record records ih =>
    rw [List.foldl_cons, ih, absorb_indexes, List.map_cons, List.mem_cons]
    split_ifs with hmem
    · constructor
      · rintro (h | h)
        · exact Or.inl h
        · exact Or.inr (Or.inr h)
      · rintro (h | rfl | h)
        · exact Or.inl h
        · exact Or.inl hmem
        · exact Or.inr h
    · rw [List.mem_append, List.mem_singleton, or_assoc]

/-- **Merging** knows the indexes of the raw records, and no other. -/
theorem mem_mergeConflictRecords :
    n ∈ (mergeConflictRecords raws updatedAt now).map ConflictRecord.index ↔
      ∃ raw ∈ raws, raw.index? = some n := by
  have hsort : n ∈ (mergeConflictRecords raws updatedAt now).map ConflictRecord.index ↔
      n ∈ ((raws.filterMap (normalizeConflictRecord updatedAt now)).foldl absorb []).map
        ConflictRecord.index := by
    simp only [mergeConflictRecords, byIndex, List.mem_map, List.mem_mergeSort]
  rw [hsort, mem_foldl_absorb]
  simp only [List.map_nil, List.not_mem_nil, false_or, List.mem_map, List.mem_filterMap]
  constructor
  · rintro ⟨r, ⟨raw, hraw, hr⟩, rfl⟩
    exact ⟨raw, hraw, by rw [← @normalize_index updatedAt now raw, hr]; rfl⟩
  · rintro ⟨raw, hraw, hn⟩
    rw [← normalize_index] at hn
    obtain ⟨r, hr, hindex⟩ := Option.map_eq_some_iff.1 hn
    exact ⟨r, ⟨raw, hraw, hr⟩, hindex⟩

end Merging

/-! ### Stored evidence, merged again -/

section Stored

variable {R merged : List ConflictRecord} {now t : Timestamp}

/-- Records of indexes that are new are taken over as they are. -/
theorem foldl_absorb_fresh {records : List ConflictRecord}
    (h : ((merged ++ records).map ConflictRecord.index).Nodup) :
    records.foldl absorb merged = merged ++ records := by
  induction records generalizing merged with
  | nil => rw [List.foldl_nil, List.append_nil]
  | cons record records ih =>
    have hnew : (merged.any fun existing => decide (existing.index = record.index)) = false := by
      rw [List.any_eq_false]
      intro existing hexisting heq
      rw [List.map_append, List.nodup_append] at h
      exact h.2.2 existing.index (List.mem_map_of_mem hexisting) record.index
        (List.mem_map_of_mem List.mem_cons_self) (of_decide_eq_true heq)
    rw [List.foldl_cons, absorb, hnew]
    have hrest := @ih (merged ++ [record])
    simp only [List.append_assoc, List.singleton_append] at hrest
    exact hrest h

/-- A record of a bare index has only its time to give. -/
theorem update_bare (existing : ConflictRecord) (index : ℕ) :
    existing.update ⟨index, t, t, none, none, none, none⟩ =
      { existing with lastConflictAt := t } := rfl

/-- The bare indexes bring their time to the records that are there. -/
theorem foldl_absorb_bare {indexes : List ℕ}
    (h : ∀ i ∈ indexes, i ∈ merged.map ConflictRecord.index) :
    (indexes.map fun i => ConflictRecord.mk i t t none none none none).foldl absorb merged =
      merged.map fun r => if r.index ∈ indexes then { r with lastConflictAt := t } else r := by
  induction indexes generalizing merged with
  | nil => simp
  | cons i indexes ih =>
    have hi : (merged.any fun existing => decide (existing.index = i)) = true := by
      obtain ⟨existing, hexisting, heq⟩ := List.mem_map.1 (h i List.mem_cons_self)
      exact List.any_eq_true.2 ⟨existing, hexisting, decide_eq_true heq⟩
    rw [List.map_cons, List.foldl_cons, absorb, hi, if_pos rfl, ih]
    · rw [List.map_map]
      refine List.map_congr_left fun r _ => ?_
      simp only [Function.comp, List.mem_cons]
      by_cases hr : r.index = i
      · rw [if_pos hr, if_pos (Or.inl hr), update_bare]
        split_ifs <;> rfl
      · rw [if_neg hr]
        simp only [hr, false_or]
    · intro j hj
      have hmem := h j (List.mem_cons_of_mem _ hj)
      obtain ⟨r, hr, rfl⟩ := List.mem_map.1 hmem
      refine List.mem_map.2 ⟨_, List.mem_map_of_mem hr, ?_⟩
      dsimp only
      split_ifs <;> rfl

/-- The evidence of a document: its records, and their indexes. -/
def stored (R : List ConflictRecord) : List RawConflict :=
  R.map ConflictRecord.raw ++ R.map fun r => rawIndex r.index

/-- **Stored evidence merged again** is the same but for the times, which are that of the merge. -/
theorem mergeConflictRecords_stored (hR : (R.map ConflictRecord.index).Nodup) :
    mergeConflictRecords (stored R) (some t.1) now =
      byIndex (R.map fun r => { r with lastConflictAt := t }) := by
  have hrecords : (R.map ConflictRecord.raw).filterMap (normalizeConflictRecord (some t.1) now) =
      R := by
    rw [List.filterMap_map]
    have hsome : normalizeConflictRecord (some t.1) now ∘ ConflictRecord.raw = some :=
      funext normalize_raw
    rw [hsome, List.filterMap_some]
  have hindexes : (R.map fun r => rawIndex r.index).filterMap
    (normalizeConflictRecord (some t.1) now) =
      (R.map ConflictRecord.index).map fun i => ConflictRecord.mk i t t none none none none := by
    rw [List.filterMap_map, List.map_map]
    have hsome : (normalizeConflictRecord (some t.1) now ∘ fun r : ConflictRecord =>
      rawIndex r.index) =
        some ∘ fun r => ConflictRecord.mk r.index t t none none none none :=
      funext fun r => normalize_rawIndex r.index
    rw [hsome, List.filterMap_eq_map]
    rfl
  have hfirst : R.foldl absorb [] = R := foldl_absorb_fresh hR
  rw [mergeConflictRecords, stored, List.filterMap_append, hrecords, hindexes, List.foldl_append,
    hfirst, foldl_absorb_bare fun i hi => hi]
  refine congrArg byIndex (List.map_congr_left fun r hr => ?_)
  exact if_pos (List.mem_map_of_mem hr)

/-- It comes back as it was exactly where the times are already that of the merge. -/
theorem merge_stored_iff (hR : (R.map ConflictRecord.index).Nodup) :
    mergeConflictRecords (stored R) (some t.1) now = byIndex R ↔ ∀ r ∈ R, r.lastConflictAt = t := by
  rw [mergeConflictRecords_stored hR]
  constructor
  · intro h r hr
    have hmem : r ∈ byIndex R := List.mem_mergeSort.2 hr
    rw [← h, byIndex, List.mem_mergeSort, List.mem_map] at hmem
    obtain ⟨r', -, rfl⟩ := hmem
    rfl
  · intro h
    have hsame : (R.map fun r => { r with lastConflictAt := t }) = R := by
      refine (List.map_congr_left fun r hr => ?_).trans (List.map_id R)
      rw [← h r hr]
      rfl
    rw [hsame]

end Stored

end ConflictEvidence
