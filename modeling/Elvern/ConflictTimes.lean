/-
The times of a conflict in the store of shared output (`route2_shared_output_store.py`).

A merge takes the first time from the first record of an index and the last time from the last one,
and the bare indexes of a document count as records of the time of the merge.

* `timesOf`, `joined` — the times of an index, and what a further record makes of them;
* `timesOf_merge` — merging joins its records one by one;
* `Document.RecordedAs`, `Document.Recorded` — documents as the store writes them;
* `times_applied`, `times_reapplied` — the times in a payload, with conflicts and without.
-/
import Elvern.ConflictMemory

open ConflictEvidence SharedOutput Runs

namespace SharedStore

/-! ### The times of an index -/

/-- The first and the last time of an index. -/
abbrev Times := Timestamp × Timestamp

def timesOf (n : ℕ) (records : List ConflictRecord) : Option Times :=
  (records.find? fun r => decide (r.index = n)).map fun r => (r.firstConflictAt, r.lastConflictAt)

/-- A further record keeps the first time and brings its last one. -/
def joined (n : ℕ) (times : Option Times) (r : ConflictRecord) : Option Times :=
  if r.index = n then some ((times.map Prod.fst).getD r.firstConflictAt,
    r.lastConflictAt) else times

section Merging

variable {n : ℕ} {merged records E R : List ConflictRecord} {updatedAt : Option String}
  {t now : Timestamp}

theorem index_of_find {r : ConflictRecord}
    (h : records.find? (fun r => decide (r.index = n)) = some r) : r.index = n := by
  simpa using List.find?_some h

theorem timesOf_absorb (merged : List ConflictRecord) (r : ConflictRecord) :
    timesOf n (absorb merged r) = joined n (timesOf n merged) r := by
  have hkeeps : ∀ e : ConflictRecord,
      (if e.index = r.index then e.update r else e).index = e.index := by
    intro e
    split_ifs <;> rfl
  rw [absorb, joined]
  by_cases hany : (merged.any fun e => decide (e.index = r.index)) = true
  · rw [if_pos hany, timesOf, List.find?_map]
    have hsame : ((fun x : ConflictRecord => decide (x.index = n)) ∘ fun e =>
        if e.index = r.index then e.update r else e) = fun e => decide (e.index = n) := by
      funext e
      simp only [Function.comp, hkeeps]
    rw [hsame, Option.map_map]
    by_cases hn : r.index = n
    · obtain ⟨e, he, heq⟩ := List.any_eq_true.1 hany
      have hsome : (merged.find? fun e => decide (e.index = n)).isSome = true := by
        rw [List.find?_isSome]
        exact ⟨e, he, by rw [← hn]; exact heq⟩
      obtain ⟨found, hfound⟩ := Option.isSome_iff_exists.1 hsome
      have hindex : found.index = n := index_of_find hfound
      -- the entry that is found keeps its first time
      rw [if_pos hn, timesOf, hfound]
      simp only [Option.map_some, Function.comp, hindex, hn, if_pos, Option.getD_some]
      rfl
    · rw [if_neg hn, timesOf]
      cases hfound : merged.find? fun e => decide (e.index = n) with
      | none => rfl
      | some found =>
        have hindex : found.index = n := index_of_find hfound
        have hne : ¬ found.index = r.index := fun heq => hn (heq ▸ hindex)
        simp only [Option.map_some, Function.comp, if_neg hne]
  · rw [if_neg hany, timesOf, List.find?_append]
    by_cases hn : r.index = n
    · have hnone : merged.find? (fun e => decide (e.index = n)) = none := by
        rw [List.find?_eq_none]
        intro e he heq
        refine hany (List.any_eq_true.2 ⟨e, he, ?_⟩)
        rw [hn]
        exact heq
      rw [if_pos hn, timesOf, hnone]
      simp [hn]
    · rw [if_neg hn, timesOf]
      simp [hn]

/-- Merging joins the records one by one. -/
theorem timesOf_foldl (records : List ConflictRecord) : ∀ merged : List ConflictRecord,
    timesOf n (records.foldl absorb merged) = records.foldl (joined n) (timesOf n merged) := by
  induction records with
  | nil =>
    intro merged
    rfl
  | cons r records ih =>
    intro merged
    rw [List.foldl_cons, List.foldl_cons, ih, timesOf_absorb]

theorem nodup_foldl_absorb (records : List ConflictRecord) : ∀ merged : List ConflictRecord,
    (merged.map ConflictRecord.index).Nodup →
    ((records.foldl absorb merged).map ConflictRecord.index).Nodup := by
  induction records with
  | nil =>
    intro merged h
    exact h
  | cons r records ih =>
    intro merged h
    refine ih _ ?_
    rw [absorb_indexes]
    split_ifs with hmem
    · exact h
    · refine List.nodup_append.2 ⟨h, List.nodup_singleton _, ?_⟩
      intro i hi j hj
      rw [List.mem_singleton.1 hj]
      rintro rfl
      exact hmem hi

/-- In records of different indexes the times are those of the record. -/
theorem timesOf_eq_some (h : (records.map ConflictRecord.index).Nodup) {times : Times} :
    timesOf n records = some times ↔
      ∃ r ∈ records, r.index = n ∧ (r.firstConflictAt, r.lastConflictAt) = times := by
  rw [timesOf, Option.map_eq_some_iff]
  constructor
  · rintro ⟨r, hr, rfl⟩
    exact ⟨r, List.mem_of_find?_eq_some hr, index_of_find hr, rfl⟩
  · rintro ⟨r, hr, hindex, rfl⟩
    have hsome : (records.find? fun e => decide (e.index = n)).isSome = true := by
      rw [List.find?_isSome]
      exact ⟨r, hr, decide_eq_true hindex⟩
    obtain ⟨found, hfound⟩ := Option.isSome_iff_exists.1 hsome
    have hfoundIndex : found.index = n := index_of_find hfound
    have heq : found = r :=
      List.inj_on_of_nodup_map h (List.mem_of_find?_eq_some hfound)
        hr (hfoundIndex.trans hindex.symm)
    exact ⟨found, hfound, by rw [heq]⟩

theorem timesOf_isSome : (timesOf n records).isSome = true ↔
    n ∈ records.map ConflictRecord.index := by
  rw [timesOf, Option.isSome_map, List.find?_isSome, List.mem_map]
  simp only [decide_eq_true_eq]

theorem nodup_merge (raws : List RawConflict) :
    ((mergeConflictRecords raws updatedAt now).map ConflictRecord.index).Nodup := by
  have hfold :=
    nodup_foldl_absorb (raws.filterMap (normalizeConflictRecord updatedAt now)) [] List.nodup_nil
  rw [mergeConflictRecords, byIndex]
  exact ((List.mergeSort_perm _ _).map _).nodup_iff.2 hfold

/-- **Merging** leaves the times that its records join to. -/
theorem timesOf_merge (raws : List RawConflict) :
    timesOf n (mergeConflictRecords raws updatedAt now) =
      (raws.filterMap (normalizeConflictRecord updatedAt now)).foldl (joined n) none := by
  have hfold :=
    nodup_foldl_absorb (raws.filterMap (normalizeConflictRecord updatedAt now)) [] List.nodup_nil
  have hstart : timesOf n [] = none := rfl
  rw [← hstart, ← timesOf_foldl]
  refine Option.ext fun times => ?_
  rw [timesOf_eq_some (nodup_merge raws), timesOf_eq_some hfold, mergeConflictRecords, byIndex]
  simp only [List.mem_mergeSort]

/-- Joining records without the index. -/
theorem foldl_joined_of_notMem (h : n ∉ records.map ConflictRecord.index) (times : Option Times) :
    records.foldl (joined n) times = times := by
  induction records generalizing times with
  | nil => rfl
  | cons r records ih =>
    rw [List.map_cons, List.mem_cons, not_or] at h
    have hr : joined n times r = times := if_neg fun heq => h.1 heq.symm
    rw [List.foldl_cons, hr, ih h.2]

/-- Joining records of different indexes: the first time that there is, and their last one. -/
theorem foldl_joined (h : (E.map ConflictRecord.index).Nodup) (times : Option Times) :
    E.foldl (joined n) times =
      match timesOf n E with
      | none => times
      | some (first, last) => some ((times.map Prod.fst).getD first, last) := by
  induction E generalizing times with
  | nil => rfl
  | cons r E ih =>
    rw [List.map_cons, List.nodup_cons] at h
    rw [List.foldl_cons]
    by_cases hr : r.index = n
    · have hnot : n ∉ E.map ConflictRecord.index := by
        rw [← hr]
        exact h.1
      have htimes : timesOf n (r :: E) = some (r.firstConflictAt, r.lastConflictAt) := by
        simp [timesOf, hr]
      rw [htimes, foldl_joined_of_notMem hnot, joined, if_pos hr]
    · have htimes : timesOf n (r :: E) = timesOf n E := by
        simp [timesOf, hr]
      rw [htimes, joined, if_neg hr, ih h.2]

/-- Joining the records of bare indexes. -/
theorem foldl_joined_bare (indexes : List ℕ) (times : Option Times) :
    (indexes.map fun i => ConflictRecord.mk i t t none none none none).foldl (joined n) times =
      if n ∈ indexes then some ((times.map Prod.fst).getD t, t) else times := by
  induction indexes generalizing times with
  | nil => rfl
  | cons i indexes ih =>
    rw [List.map_cons, List.foldl_cons, ih, joined]
    by_cases hi : i = n
    · rw [if_pos hi, hi]
      split_ifs with hmem hmem'
      · rfl
      · exact absurd List.mem_cons_self hmem'
      · rfl
      · exact absurd List.mem_cons_self ‹_›
    · rw [if_neg hi]
      have hmem : n ∈ i :: indexes ↔ n ∈ indexes := by
        rw [List.mem_cons]
        exact or_iff_right fun heq => hi heq.symm
      simp only [hmem]

theorem normalize_raws (records : List ConflictRecord) :
    (records.map ConflictRecord.raw).filterMap
    (normalizeConflictRecord updatedAt now) = records := by
  rw [List.filterMap_map]
  have hsome : normalizeConflictRecord updatedAt now ∘ ConflictRecord.raw = some :=
    funext normalize_raw
  rw [hsome, List.filterMap_some]

/-- Records that are merged behind others whose first times are theirs keep their times. -/
theorem timesOf_merge_onto {raws : List RawConflict} (hE : (E.map ConflictRecord.index).Nodup)
    (h : ∀ times, (raws.filterMap (normalizeConflictRecord updatedAt now)).foldl (joined n) none =
      some times → (timesOf n E).map Prod.fst = some times.1) :
    timesOf n (mergeConflictRecords (raws ++ E.map ConflictRecord.raw) updatedAt now) =
        timesOf n E := by
  rw [timesOf_merge, List.filterMap_append, List.foldl_append, normalize_raws, foldl_joined hE]
  cases hraws : (raws.filterMap (normalizeConflictRecord updatedAt now)).foldl (joined n) none with
  | none =>
    cases timesOf n E with
    | none => rfl
    | some times => rfl
  | some times =>
    have hfirst := h times hraws
    cases hE : timesOf n E with
    | none =>
      rw [hE] at hfirst
      cases hfirst
    | some own =>
      rw [hE, Option.map_some, Option.some_inj] at hfirst
      show some (((some times).map Prod.fst).getD own.1, own.2) = some own
      rw [Option.map_some, Option.getD_some, ← hfirst]

theorem timesOf_merge_raws (hE : (E.map ConflictRecord.index).Nodup) :
    timesOf n (mergeConflictRecords (E.map ConflictRecord.raw) updatedAt now) = timesOf n E := by
  have honto := @timesOf_merge_onto n E updatedAt now [] hE (fun times htimes => by cases htimes)
  exact honto

end Merging

/-! ### Documents -/

/-- The times that a record found in a document says. -/
def RawConflict.times : RawConflict → Option Times
  | .mapping _ firstAt lastAt .. =>
    match truthy firstAt, truthy lastAt with
    | some first, some last => some (first, last)
    | _, _ => none
  | .bare _ => none

/-- What a document says of the times of an index. -/
def Document.times (document : Document) (n : ℕ) : Option Times :=
  (document.segmentHashConflicts.find? fun raw => decide (raw.index? = some n)).bind
    RawConflict.times

/-- The document has records of different indexes, and lists these. -/
def Document.RecordedAs (document : Document) (records : List ConflictRecord) : Prop :=
  (records.map ConflictRecord.index).Nodup ∧
    document.segmentHashConflicts = records.map ConflictRecord.raw ∧
    document.conflictIndexes = (sortedIndexes records).map rawIndex

/-- The document is one that the store has written. -/
def Document.Recorded (document : Document) : Prop := ∃ records, document.RecordedAs records

section Documents

variable {n : ℕ} {document payload : Document} {records conflicts : List ConflictRecord}
  {present : Bool} {t now : Timestamp}

theorem times_of_recorded (h : document.RecordedAs records) :
    document.times n = timesOf n records := by
  obtain ⟨-, hrecords, -⟩ := h
  rw [Document.times, hrecords, List.find?_map, timesOf]
  have hsame : ((fun raw : RawConflict => decide (raw.index? = some n)) ∘ ConflictRecord.raw) =
      fun r => decide (r.index = n) := by
    funext r
    simp only [Function.comp, index?_raw, Option.some_inj]
  rw [hsame]
  cases records.find? fun r => decide (r.index = n) with
  | none => rfl
  | some r =>
    simp only [Option.map_some, Option.bind_some, ConflictRecord.raw,
      RawConflict.times, truthy_some]

/-- The records of a document, and a record of the time of the merge for each index. -/
theorem foldl_joined_raws (h : document.RecordedAs records) (updatedAt : Option String)
    (htime : (truthy updatedAt).getD now = t) (times : Option Times) :
    (document.raws.filterMap (normalizeConflictRecord updatedAt now)).foldl (joined n) times =
      match document.times n with
      | none => times
      | some (first, _) => some ((times.map Prod.fst).getD first, t) := by
  rw [times_of_recorded h]
  obtain ⟨hnodup, hrecords, hindexes⟩ := h
  have hbare : (document.conflictIndexes).filterMap (normalizeConflictRecord updatedAt now) =
      (sortedIndexes records).map fun i => ConflictRecord.mk i t t none none none none := by
    rw [hindexes, List.filterMap_map]
    have hsome : (normalizeConflictRecord updatedAt now ∘ rawIndex) =
        some ∘ fun i => ConflictRecord.mk i t t none none none none := by
      funext i
      simp only [Function.comp, rawIndex, normalizeConflictRecord, htime]
      rfl
    rw [hsome, List.filterMap_eq_map]
  rw [Document.raws, List.filterMap_append, hbare, hrecords, normalize_raws, List.foldl_append,
    foldl_joined hnodup, foldl_joined_bare]
  have hmem : n ∈ sortedIndexes records ↔ (timesOf n records).isSome = true := by
    rw [mem_sortedIndexes, timesOf_isSome]
  cases hown : timesOf n records with
  | none =>
    rw [hown] at hmem
    rw [if_neg fun h => Bool.false_ne_true (hmem.1 h)]
  | some own =>
    rw [hown] at hmem
    rw [if_pos (hmem.2 rfl)]
    rfl

theorem recorded_blank : Document.blank.RecordedAs [] := by
  refine ⟨List.nodup_nil, rfl, ?_⟩
  simp [sortedIndexes, Document.blank]

theorem recorded_applied : (applyServabilityFields payload present conflicts now).Recorded :=
  ⟨_, nodup_merge _, rfl, rfl⟩

/-- A payload gets the times of the conflicts that are put into it, where its first times are
theirs. -/
theorem times_applied (hpayload : payload.RecordedAs records)
    (hconflicts : (conflicts.map ConflictRecord.index).Nodup)
    (h : ∀ times, payload.times n = some times →
      (timesOf n conflicts).map Prod.fst = some times.1) :
    (applyServabilityFields payload present conflicts now).times n = timesOf n conflicts := by
  have hrecorded : (applyServabilityFields payload present conflicts now).RecordedAs
      (mergeConflictRecords
        ((mergeConflictRecords (payload.raws ++ conflicts.map ConflictRecord.raw) none
        now).map ConflictRecord.raw) none now) := ⟨nodup_merge _, rfl, rfl⟩
  rw [times_of_recorded hrecorded, timesOf_merge_raws (nodup_merge _),
    timesOf_merge_onto hconflicts]
  intro times htimes
  rw [foldl_joined_raws hpayload none rfl] at htimes
  cases hown : payload.times n with
  | none =>
    rw [hown] at htimes
    cases htimes
  | some own =>
    rw [hown] at htimes
    cases htimes
    exact h own hown

/-- Where nothing is put into it, it gets the time of the merge. -/
theorem times_reapplied (hpayload : payload.RecordedAs records) :
    (applyServabilityFields payload present [] now).times n =
      (payload.times n).map fun times => (times.1, now) := by
  have hrecorded : (applyServabilityFields payload present [] now).RecordedAs
      (mergeConflictRecords ((mergeConflictRecords (payload.raws ++ [].map ConflictRecord.raw) none
        now).map ConflictRecord.raw) none now) := ⟨nodup_merge _, rfl, rfl⟩
  rw [times_of_recorded hrecorded, timesOf_merge_raws (nodup_merge _), List.map_nil,
    List.append_nil, timesOf_merge, foldl_joined_raws hpayload none rfl]
  cases payload.times n with
  | none => rfl
  | some own => rfl

end Documents

end SharedStore
