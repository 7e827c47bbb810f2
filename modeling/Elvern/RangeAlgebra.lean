/-
The range algebra of the shared store (`route2_shared_output_store.py`).

Ranges are half open.  A list is canonical when its ranges are not empty, ascend
and do not touch; a set of indexes is covered by one canonical list at most, so
merging depends only on what the ranges cover.

* `coerceRangeIndexes`, `mergeContiguous`, `findContiguousRangeCovering`,
  `findGaps` -- the functions, with the payloads they return;
* `Canonical.eq_of_covers` -- a canonical list is determined by what it covers;
* `mergeSorted_spec`, `covers_gapsFrom` -- the two sweeps;
* `range_algebra` -- merging, finding and the gaps agree on one set.
-/
import Elvern.ProgressTracking
import Elvern.SharedOutputStore
import Elvern.Sweeps

namespace SharedOutput

/-- `SharedOutputIndexRange` and its dictionary. -/
structure RangePayload where
  startIndex : ℕ
  endIndexExclusive : ℕ
  startSeconds : ℚ
  endSeconds : ℚ
  segmentCount : ℕ
  source : String

/-- What `_coerce_range_indexes` reads again out of a payload. -/
def RangePayload.indexes (payload : RangePayload) : IndexRange :=
  (payload.startIndex, payload.endIndexExclusive)

/-- `_coerce_range_indexes`, on the two integers that each form of a range
gives. -/
def coerceRangeIndexes (value : ℤ × ℤ) : Except String IndexRange :=
  if value.1 < 0 ∨ value.2 < 0 then .error "Range indexes must be non-negative"
  else if value.2 ≤ value.1 then .error "Range end must be greater than range start"
  else .ok (value.1.toNat, value.2.toNat)

/-- `_validate_segment_duration` -/
def validateSegmentDuration (duration : ℚ) : Except String ℚ :=
  if duration ≤ 0 then .error "Segment duration must be positive" else .ok duration

/-- `round(x, 6)` -/
def round6 (x : ℚ) : ℚ := Progress.roundHalfEven (1000000 * x) / 1000000

/-- `_range_payload` -/
def rangePayload (segmentDurationSeconds : ℚ) (source : String) (range : IndexRange) :
    Except String RangePayload := do
  let duration ← validateSegmentDuration segmentDurationSeconds
  return {
    startIndex := range.1
    endIndexExclusive := range.2
    startSeconds := round6 (range.1 * duration)
    endSeconds := round6 (range.2 * duration)
    segmentCount := range.2 - range.1
    source := if source = "" then "future" else source }

/-- The ranges that are merged, in the order of their tuples. -/
def mergeSorted : List IndexRange → List IndexRange
  | [] => []
  | first :: rest => mergeFrom first rest

/-- `merge_contiguous_ranges`, with the payloads. -/
def mergeContiguous (ranges : List (ℤ × ℤ)) (segmentDurationSeconds : ℚ) (source : String) :
    Except String (List RangePayload) := do
  let coerced ← ranges.mapM coerceRangeIndexes
  (mergeSorted (coerced.mergeSort rangeLe)).mapM (rangePayload segmentDurationSeconds source)

/-- `find_contiguous_range_covering` -/
def findContiguousRangeCovering (ranges : List (ℤ × ℤ)) (startIndex : ℤ)
    (segmentDurationSeconds : ℚ) : Except String (Option RangePayload) := do
  if startIndex < 0 then throw "Segment index must be non-negative"
  let merged ← mergeContiguous ranges segmentDurationSeconds "future"
  return merged.find? fun range =>
    decide ((range.startIndex : ℤ) ≤ startIndex ∧ startIndex < range.endIndexExclusive)

/-- What is left behind the cursor when the loop of
`find_gaps_for_requested_range` ends. -/
def lastGap (requestEnd cursor : ℕ) : List IndexRange :=
  if cursor < requestEnd then [(cursor, requestEnd)] else []

/-- The loop of `find_gaps_for_requested_range`, from the cursor on. -/
def gapsFrom (requestEnd : ℕ) : ℕ → List IndexRange → List IndexRange
  | cursor, [] => lastGap requestEnd cursor
  | cursor, range :: rest =>
    if range.2 ≤ cursor then gapsFrom requestEnd cursor rest
    else if requestEnd ≤ range.1 then lastGap requestEnd cursor
    else
      let next := max cursor (min range.2 requestEnd)
      let later := if requestEnd ≤ next then lastGap requestEnd next
        else gapsFrom requestEnd next rest
      if cursor < range.1 then (cursor, min range.1 requestEnd) :: later else later

/-- `find_gaps_for_requested_range` -/
def findGaps (ranges : List (ℤ × ℤ)) (startIndex endIndexExclusive : ℤ)
    (segmentDurationSeconds : ℚ) : Except String (List RangePayload) := do
  if startIndex < 0 ∨ endIndexExclusive < 0 ∨ endIndexExclusive < startIndex then
    throw "Requested range indexes are invalid"
  if endIndexExclusive = startIndex then return []
  let merged ← mergeContiguous ranges segmentDurationSeconds "future"
  (gapsFrom endIndexExclusive.toNat startIndex.toNat (merged.map RangePayload.indexes)).mapM
    (rangePayload segmentDurationSeconds "gap")

/-! ### Canonical lists -/

/-- Ranges that are not empty, ascend and do not touch. -/
structure Canonical (l : List IndexRange) : Prop where
  nonempty : ∀ r ∈ l, r.1 < r.2
  apart : l.Pairwise fun a b => a.2 < b.1

/-- What a list of ranges covers. -/
def Covers (l : List IndexRange) (n : ℕ) : Prop := ∃ r ∈ l, IndexRange.covers r n

section Lists

variable {l l' rest : List IndexRange} {r current : IndexRange} {n cursor requestEnd : ℕ}

theorem Canonical.tail (h : Canonical (r :: rest)) : Canonical rest :=
  ⟨fun q hq => h.nonempty q (List.mem_cons_of_mem _ hq), (List.pairwise_cons.1 h.apart).2⟩

theorem covers_cons : Covers (r :: rest) n ↔ IndexRange.covers r n ∨ Covers rest n := by
  simp only [Covers, List.exists_mem_cons_iff]

/-- What follows a range begins behind its end. -/
theorem Canonical.lt_of_covers (h : Canonical (r :: rest)) (hn : Covers rest n) : r.2 < n := by
  obtain ⟨q, hq, hfirst, -⟩ := hn
  exact ((List.pairwise_cons.1 h.apart).1 q hq).trans_le hfirst

/-- The closed interval of a range. -/
def IndexRange.closed (r : IndexRange) : ℕ × ℕ := (r.1, r.2 - 1)

theorem Canonical.separated (h : Canonical l) : Sweeps.Separated (l.map IndexRange.closed) where
  nonempty := by
    intro q hq
    obtain ⟨r, hr, rfl⟩ := List.mem_map.1 hq
    have hlt := h.nonempty r hr
    show r.1 ≤ r.2 - 1
    omega
  apart := by
    rw [List.pairwise_map]
    refine List.Pairwise.imp_of_mem ?_ h.apart
    intro a b ha _ hab
    have hlt := h.nonempty a ha
    show a.2 - 1 + 1 < b.1
    omega

theorem Canonical.mem_union (h : Canonical l) :
    n ∈ Sweeps.union (l.map IndexRange.closed) ↔ Covers l n := by
  constructor
  · rintro ⟨q, hq, hn⟩
    obtain ⟨r, hr, rfl⟩ := List.mem_map.1 hq
    obtain ⟨hfirst, hlast⟩ : r.1 ≤ n ∧ n ≤ r.2 - 1 := hn
    have hlt := h.nonempty r hr
    exact ⟨r, hr, hfirst, by omega⟩
  · rintro ⟨r, hr, hfirst, hlast⟩
    refine ⟨r.closed, List.mem_map_of_mem hr, hfirst, ?_⟩
    show n ≤ r.2 - 1
    omega

/-- What is covered is covered by one canonical list. -/
theorem Canonical.eq_of_covers (h : Canonical l) (h' : Canonical l')
    (hcovers : ∀ n, Covers l n ↔ Covers l' n) : l = l' := by
  have hclosed : l.map IndexRange.closed = l'.map IndexRange.closed := by
    refine h.separated.eq_of_union_eq h'.separated ?_
    ext n
    rw [h.mem_union, h'.mem_union, hcovers]
  have hback : ∀ {l : List IndexRange}, Canonical l →
      (l.map IndexRange.closed).map (fun q => (q.1, q.2 + 1)) = l := by
    intro l hl
    rw [List.map_map]
    refine (List.map_congr_left ?_).trans (List.map_id l)
    intro r hr
    have hlt := hl.nonempty r hr
    refine Prod.ext rfl ?_
    show r.2 - 1 + 1 = r.2
    omega
  rw [← hback h, ← hback h', hclosed]

/-! ### Merging -/

theorem le_of_mem_mergeFrom (hstart : ∀ r ∈ rest, current.1 ≤ r.1)
    (hsorted : rest.Pairwise fun a b => a.1 ≤ b.1) (hr : r ∈ mergeFrom current rest) :
    current.1 ≤ r.1 := by
  induction rest generalizing current with
  | nil =>
    rw [List.mem_singleton.1 hr]
  | cons q rest ih =>
    obtain ⟨hq, hrest⟩ := List.pairwise_cons.1 hsorted
    have hle := hstart q List.mem_cons_self
    rw [mergeFrom] at hr
    split_ifs at hr
    · exact @ih (current.1, max current.2 q.2) (fun p hp => hle.trans (hq p hp)) hrest hr
    · rcases List.mem_cons.1 hr with rfl | hr
      · exact le_rfl
      · exact hle.trans (ih hq hrest hr)

/-- The sweep closes a range only before one that begins behind its end. -/
theorem canonical_mergeFrom (hcurrent : current.1 < current.2) (hlt : ∀ r ∈ rest, r.1 < r.2)
    (hstart : ∀ r ∈ rest, current.1 ≤ r.1) (hsorted : rest.Pairwise fun a b => a.1 ≤ b.1) :
    Canonical (mergeFrom current rest) := by
  refine ⟨mergeFrom_lt hcurrent hlt, ?_⟩
  induction rest generalizing current with
  | nil => exact List.pairwise_singleton _ _
  | cons q rest ih =>
    obtain ⟨hq, hrest⟩ := List.pairwise_cons.1 hsorted
    have hle := hstart q List.mem_cons_self
    have hltq := hlt q List.mem_cons_self
    have hltRest : ∀ r ∈ rest, r.1 < r.2 := fun r hr => hlt r (List.mem_cons_of_mem _ hr)
    rw [mergeFrom]
    split_ifs with htouch
    · exact @ih (current.1, max current.2 q.2) (lt_max_of_lt_left hcurrent) hltRest
        (fun p hp => hle.trans (hq p hp)) hrest
    · refine List.pairwise_cons.2 ⟨?_, ih hltq hltRest hq hrest⟩
      intro p hp
      have hqp := le_of_mem_mergeFrom hq hrest hp
      omega

/-- Merging a list of nonempty ranges: a canonical list that covers the same. -/
theorem mergeSorted_spec (hlt : ∀ r ∈ l, r.1 < r.2) :
    Canonical (mergeSorted (l.mergeSort rangeLe)) ∧
      ∀ n, Covers (mergeSorted (l.mergeSort rangeLe)) n ↔ Covers l n := by
  have hperm : ∀ n, Covers (l.mergeSort rangeLe) n ↔ Covers l n := by
    intro n
    simp only [Covers, List.mem_mergeSort]
  have hsorted := rangeLe_sorted l
  have hall : ∀ r ∈ l.mergeSort rangeLe, r.1 < r.2 :=
    fun r hr => hlt r (List.mem_mergeSort.1 hr)
  cases hcase : l.mergeSort rangeLe with
  | nil =>
    rw [hcase] at hperm
    exact ⟨⟨fun r hr => absurd hr List.not_mem_nil, List.Pairwise.nil⟩, hperm⟩
  | cons first rest =>
    rw [hcase] at hperm hsorted hall
    obtain ⟨hfirst, hrest⟩ := List.pairwise_cons.1 hsorted
    refine ⟨canonical_mergeFrom (hall first List.mem_cons_self)
      (fun r hr => hall r (List.mem_cons_of_mem _ hr)) hfirst hrest, ?_⟩
    intro n
    rw [← hperm, mergeSorted, Covers, mem_mergeFrom hfirst hrest, Covers,
      List.exists_mem_cons_iff]

/-! ### The gaps -/

theorem mem_lastGap : r ∈ lastGap requestEnd cursor ↔ cursor < requestEnd ∧
    r = (cursor, requestEnd) := by
  rw [lastGap]
  split_ifs with hlt
  · rw [List.mem_singleton]
    exact ⟨fun h => ⟨hlt, h⟩, fun h => h.2⟩
  · exact ⟨fun h => absurd h List.not_mem_nil, fun h => absurd h.1 hlt⟩

theorem covers_lastGap : Covers (lastGap requestEnd cursor) n ↔ cursor ≤ n ∧ n < requestEnd := by
  simp only [Covers, mem_lastGap]
  constructor
  · rintro ⟨r, ⟨-, rfl⟩, hn⟩
    exact hn
  · intro hn
    exact ⟨(cursor, requestEnd), ⟨by omega, rfl⟩, hn⟩

theorem canonical_lastGap : Canonical (lastGap requestEnd cursor) := by
  rw [lastGap]
  split_ifs with hlt
  · refine ⟨fun r hr => ?_, List.pairwise_singleton _ _⟩
    rw [List.mem_singleton.1 hr]
    exact hlt
  · exact ⟨fun r hr => absurd hr List.not_mem_nil, List.Pairwise.nil⟩

/-- What one range of the loop leaves over: behind it, the rest of the request
or nothing. -/
theorem gapsFrom_cons (hend : cursor < r.2) (hstart : r.1 < requestEnd) :
    ∃ later, (later = lastGap requestEnd (max cursor (min r.2 requestEnd)) ∧ requestEnd ≤ r.2
        ∨ later = gapsFrom requestEnd (max cursor (min r.2 requestEnd)) rest) ∧
      gapsFrom requestEnd cursor (r :: rest) =
        if cursor < r.1 then (cursor, min r.1 requestEnd) :: later else later := by
  by_cases hstop : requestEnd ≤ max cursor (min r.2 requestEnd)
  · refine ⟨lastGap requestEnd (max cursor (min r.2 requestEnd)), Or.inl ⟨rfl, by omega⟩, ?_⟩
    simp only [gapsFrom, if_neg (not_le.2 hend), if_neg (not_le.2 hstart), if_pos hstop]
  · refine ⟨gapsFrom requestEnd (max cursor (min r.2 requestEnd)) rest, Or.inr rfl, ?_⟩
    simp only [gapsFrom, if_neg (not_le.2 hend), if_neg (not_le.2 hstart), if_neg hstop]

theorem gapsFrom_skip (hend : r.2 ≤ cursor) :
    gapsFrom requestEnd cursor (r :: rest) = gapsFrom requestEnd cursor rest := by
  rw [gapsFrom, if_pos hend]

theorem gapsFrom_stop (hend : cursor < r.2) (hstart : requestEnd ≤ r.1) :
    gapsFrom requestEnd cursor (r :: rest) = lastGap requestEnd cursor := by
  rw [gapsFrom, if_neg (not_le.2 hend), if_pos hstart]

theorem le_of_mem_gapsFrom (hr : r ∈ gapsFrom requestEnd cursor l) : cursor ≤ r.1 := by
  induction l generalizing cursor with
  | nil =>
    rw [(mem_lastGap.1 hr).2]
  | cons q rest ih =>
    by_cases hend : q.2 ≤ cursor
    · rw [gapsFrom_skip hend] at hr
      exact ih hr
    · by_cases hstart : requestEnd ≤ q.1
      · rw [gapsFrom_stop (not_le.1 hend) hstart] at hr
        rw [(mem_lastGap.1 hr).2]
      · obtain ⟨later, hlater, heq⟩ :=
          @gapsFrom_cons rest q cursor requestEnd (not_le.1 hend) (not_le.1 hstart)
        have hlate : r ∈ later → cursor ≤ r.1 := by
          intro hmem
          obtain ⟨rfl, -⟩ | rfl := hlater
          · rw [(mem_lastGap.1 hmem).2]
            exact le_max_left _ _
          · exact (le_max_left _ _).trans (ih hmem)
        rw [heq] at hr
        split_ifs at hr
        · rcases List.mem_cons.1 hr with rfl | hr
          · exact le_rfl
          · exact hlate hr
        · exact hlate hr

/-- What is left over of a request is canonical. -/
theorem canonical_gapsFrom (hl : Canonical l) : Canonical (gapsFrom requestEnd cursor l) := by
  induction l generalizing cursor with
  | nil => exact canonical_lastGap
  | cons q rest ih =>
    have hrest := hl.tail
    have hq := hl.nonempty q List.mem_cons_self
    by_cases hend : q.2 ≤ cursor
    · rw [gapsFrom_skip hend]
      exact ih hrest
    · by_cases hstart : requestEnd ≤ q.1
      · rw [gapsFrom_stop (not_le.1 hend) hstart]
        exact canonical_lastGap
      · obtain ⟨later, hlater, heq⟩ :=
          @gapsFrom_cons rest q cursor requestEnd (not_le.1 hend) (not_le.1 hstart)
        have hcanonical : Canonical later := by
          obtain ⟨rfl, -⟩ | rfl := hlater
          · exact canonical_lastGap
          · exact ih hrest
        -- what comes later begins behind the range, which is not empty
        have hlate : ∀ r ∈ later, min q.2 requestEnd ≤ r.1 := by
          intro r hmem
          obtain ⟨rfl, -⟩ | rfl := hlater
          · rw [(mem_lastGap.1 hmem).2]
            exact le_max_right _ _
          · exact (le_max_right _ _).trans (le_of_mem_gapsFrom hmem)
        rw [heq]
        split_ifs with hgap
        · constructor
          · intro r hr
            rcases List.mem_cons.1 hr with rfl | hr
            · show cursor < min q.1 requestEnd
              omega
            · exact hcanonical.nonempty r hr
          · refine List.pairwise_cons.2 ⟨fun r hr => ?_, hcanonical.apart⟩
            have hle := hlate r hr
            show min q.1 requestEnd < r.1
            omega
        · exact hcanonical

/-- The gaps are what the ranges leave over of the request. -/
theorem covers_gapsFrom (hl : Canonical l) (hcursor : cursor ≤ requestEnd) :
    Covers (gapsFrom requestEnd cursor l) n ↔ cursor ≤ n ∧ n < requestEnd ∧ ¬ Covers l n := by
  induction l generalizing cursor with
  | nil =>
    rw [gapsFrom, covers_lastGap]
    simp [Covers]
  | cons q rest ih =>
    have hrest := hl.tail
    have hbehind : Covers rest n → q.2 < n := hl.lt_of_covers
    have hq := hl.nonempty q List.mem_cons_self
    rw [covers_cons, IndexRange.covers]
    by_cases hend : q.2 ≤ cursor
    · rw [gapsFrom_skip hend, ih hrest hcursor]
      constructor
      · rintro ⟨hn, hn', hout⟩
        exact ⟨hn, hn', fun hor => hor.elim (fun hin => by omega) hout⟩
      · rintro ⟨hn, hn', hout⟩
        exact ⟨hn, hn', fun hin => hout (Or.inr hin)⟩
    · by_cases hstart : requestEnd ≤ q.1
      · rw [gapsFrom_stop (not_le.1 hend) hstart, covers_lastGap]
        constructor
        · rintro ⟨hn, hn'⟩
          refine ⟨hn, hn', fun hor => hor.elim (fun hin => by omega) fun hin => ?_⟩
          have hlt := hbehind hin
          omega
        · rintro ⟨hn, hn', -⟩
          exact ⟨hn, hn'⟩
      · obtain ⟨later, hlater, heq⟩ :=
          @gapsFrom_cons rest q cursor requestEnd (not_le.1 hend) (not_le.1 hstart)
        -- behind the range, the rest of the request, but for what the other ranges cover
        have hlate : Covers later n ↔ q.2 ≤ n ∧ n < requestEnd ∧ ¬ Covers rest n := by
          obtain ⟨rfl, hover⟩ | rfl := hlater
          · rw [covers_lastGap]
            constructor
            · rintro ⟨hn, hn'⟩
              omega
            · rintro ⟨hn, hn', -⟩
              omega
          · rw [ih hrest (by omega)]
            constructor
            · rintro ⟨hn, hn', hout⟩
              exact ⟨by omega, hn', hout⟩
            · rintro ⟨hn, hn', hout⟩
              exact ⟨by omega, hn', hout⟩
        rw [heq]
        split_ifs with hgap
        · rw [covers_cons, IndexRange.covers, hlate]
          constructor
          · rintro (⟨hn, hn'⟩ | ⟨hn, hn', hout⟩)
            · refine ⟨hn, by omega, fun hor => hor.elim (fun hin => by omega) fun hin => ?_⟩
              have hlt := hbehind hin
              omega
            · exact ⟨by omega, hn', fun hor => hor.elim (fun hin => by omega) hout⟩
          · rintro ⟨hn, hn', hout⟩
            by_cases hlt : n < q.1
            · exact Or.inl ⟨hn, by omega⟩
            · refine Or.inr ⟨?_, hn', fun hin => hout (Or.inr hin)⟩
              by_contra hin
              exact hout (Or.inl ⟨by omega, by omega⟩)
        · rw [hlate]
          constructor
          · rintro ⟨hn, hn', hout⟩
            exact ⟨by omega, hn', fun hor => hor.elim (fun hin => by omega) hout⟩
          · rintro ⟨hn, hn', hout⟩
            refine ⟨?_, hn', fun hin => hout (Or.inr hin)⟩
            by_contra hin
            exact hout (Or.inl ⟨by omega, by omega⟩)

end Lists

/-! ### The functions -/

/-- The lists of ranges that `_coerce_range_indexes` accepts. -/
def Accepted (ranges : List (ℤ × ℤ)) : Prop :=
  ∀ value ∈ ranges, ∃ range, coerceRangeIndexes value = .ok range

/-- The union of the inputs. -/
def Covered (ranges : List (ℤ × ℤ)) (n : ℕ) : Prop :=
  ∃ value ∈ ranges, value.1 ≤ n ∧ (n : ℤ) < value.2

section Functions

variable {ranges : List (ℤ × ℤ)} {duration : ℚ}

theorem coerceRangeIndexes_eq_ok {value : ℤ × ℤ} {range : IndexRange} :
    coerceRangeIndexes value = .ok range ↔
      0 ≤ value.1 ∧ value.1 < value.2 ∧ range = (value.1.toNat, value.2.toNat) := by
  rw [coerceRangeIndexes]
  split_ifs with hneg hempty
  · constructor
    · intro h
      cases h
    · rintro ⟨hfirst, hlt, -⟩
      omega
  · constructor
    · intro h
      cases h
    · rintro ⟨-, hlt, -⟩
      omega
  · constructor
    · intro h
      cases h
      exact ⟨by omega, by omega, rfl⟩
    · rintro ⟨-, -, rfl⟩
      rfl

theorem mapM_eq_ok {α β : Type} {f : α → Except String β} {g : α → β} {l : List α}
    (h : ∀ a ∈ l, f a = .ok (g a)) : l.mapM f = .ok (l.map g) := by
  induction l with
  | nil => rfl
  | cons a l ih =>
    rw [List.mapM_cons, h a List.mem_cons_self,
      ih fun b hb => h b (List.mem_cons_of_mem _ hb)]
    rfl

/-- The payload of a range, for a duration that is accepted. -/
def payloadOf (duration : ℚ) (source : String) (range : IndexRange) : RangePayload where
  startIndex := range.1
  endIndexExclusive := range.2
  startSeconds := round6 (range.1 * duration)
  endSeconds := round6 (range.2 * duration)
  segmentCount := range.2 - range.1
  source := if source = "" then "future" else source

theorem mapM_rangePayload (hduration : 0 < duration) (source : String) (l : List IndexRange) :
    l.mapM (rangePayload duration source) = .ok (l.map (payloadOf duration source)) := by
  apply mapM_eq_ok
  intro range _
  rw [rangePayload, validateSegmentDuration, if_neg (not_le.2 hduration)]
  rfl

theorem map_indexes_payloadOf (source : String) (l : List IndexRange) :
    (l.map (payloadOf duration source)).map RangePayload.indexes = l := by
  rw [List.map_map]
  exact List.map_id l

/-- The ranges of the merge, as lists of two indexes. -/
def mergedIndexes (ranges : List (ℤ × ℤ)) : List IndexRange :=
  mergeSorted ((ranges.map fun value => (value.1.toNat, value.2.toNat)).mergeSort rangeLe)

theorem mergeContiguous_eq (h : Accepted ranges) (hduration : 0 < duration) (source : String) :
    mergeContiguous ranges duration source =
      .ok ((mergedIndexes ranges).map (payloadOf duration source)) := by
  have hcoerced : ranges.mapM coerceRangeIndexes =
      .ok (ranges.map fun value => (value.1.toNat, value.2.toNat)) := by
    apply mapM_eq_ok
    intro value hvalue
    obtain ⟨range, hrange⟩ := h value hvalue
    rw [hrange, (coerceRangeIndexes_eq_ok.1 hrange).2.2]
  rw [mergeContiguous, hcoerced]
  exact mapM_rangePayload hduration source _

/-- The merge is canonical and covers the union of the inputs. -/
theorem mergedIndexes_spec (h : Accepted ranges) :
    Canonical (mergedIndexes ranges) ∧ ∀ n, Covers (mergedIndexes ranges) n ↔ Covered ranges n := by
  have hvalid : ∀ value ∈ ranges, 0 ≤ value.1 ∧ value.1 < value.2 := by
    intro value hvalue
    obtain ⟨range, hrange⟩ := h value hvalue
    obtain ⟨hfirst, hlt, -⟩ := coerceRangeIndexes_eq_ok.1 hrange
    exact ⟨hfirst, hlt⟩
  obtain ⟨hcanonical, hcovers⟩ := @mergeSorted_spec
      (ranges.map fun value => (value.1.toNat, value.2.toNat)) (by
    intro r hr
    obtain ⟨value, hvalue, rfl⟩ := List.mem_map.1 hr
    have hbounds := hvalid value hvalue
    show value.1.toNat < value.2.toNat
    omega)
  refine ⟨hcanonical, fun n => (hcovers n).trans ?_⟩
  constructor
  · rintro ⟨r, hr, hn⟩
    obtain ⟨value, hvalue, rfl⟩ := List.mem_map.1 hr
    have hbounds := hvalid value hvalue
    obtain ⟨hfirst, hlast⟩ : value.1.toNat ≤ n ∧ n < value.2.toNat := hn
    exact ⟨value, hvalue, by omega, by omega⟩
  · rintro ⟨value, hvalue, hfirst, hlast⟩
    have hbounds := hvalid value hvalue
    refine ⟨_, List.mem_map_of_mem hvalue, ?_, ?_⟩
    · show value.1.toNat ≤ n
      omega
    · show n < value.2.toNat
      omega

/-- The full merge returns what the merge of the bare indexes returns. -/
theorem mergeContiguousRanges_eq (h : Accepted ranges) :
    mergeContiguousRanges (ranges.map fun value => (value.1.toNat, value.2.toNat)) =
      some (mergedIndexes ranges) := by
  rw [mergeContiguousRanges, if_neg, mergedIndexes]
  · cases (ranges.map fun value => (value.1.toNat, value.2.toNat)).mergeSort rangeLe with
    | nil => rfl
    | cons first rest => rfl
  · intro hany
    obtain ⟨r, hr, hempty⟩ := List.any_eq_true.1 hany
    obtain ⟨value, hvalue, rfl⟩ := List.mem_map.1 hr
    obtain ⟨range, hrange⟩ := h value hvalue
    obtain ⟨hfirst, hlt, -⟩ := coerceRangeIndexes_eq_ok.1 hrange
    have hle : value.2.toNat ≤ value.1.toNat := of_decide_eq_true hempty
    omega

theorem find?_payload (duration : ℚ) (source : String) (l : List IndexRange) (target : ℕ) :
    match (l.map (payloadOf duration source)).find? fun range =>
      decide ((range.startIndex : ℤ) ≤ target ∧ (target : ℤ) < range.endIndexExclusive) with
    | some range => range ∈ l.map (payloadOf duration source) ∧ range.indexes.covers target
    | none => ¬ Covers l target := by
  split
  · next range hfound =>
    refine ⟨List.mem_of_find?_eq_some hfound, ?_⟩
    have hin := List.find?_some hfound
    simp only [decide_eq_true_eq] at hin
    obtain ⟨hfirst, hlast⟩ := hin
    refine ⟨?_, ?_⟩
    · show range.startIndex ≤ target
      omega
    · show target < range.endIndexExclusive
      omega
  · next hnone =>
    rintro ⟨r, hr, hfirst, hlast⟩
    have hout := List.find?_eq_none.1 hnone _ (List.mem_map_of_mem hr)
    apply hout
    apply decide_eq_true
    show ((r.1 : ℕ) : ℤ) ≤ target ∧ (target : ℤ) < (r.2 : ℕ)
    omega

/-- Merging what was merged. -/
theorem accepted_of_canonical (h : Canonical l) :
    Accepted (l.map fun r => ((r.1 : ℤ), (r.2 : ℤ))) ∧
      ∀ n, Covered (l.map fun r => ((r.1 : ℤ), (r.2 : ℤ))) n ↔ Covers l n := by
  constructor
  · intro value hvalue
    obtain ⟨r, hr, rfl⟩ := List.mem_map.1 hvalue
    have hlt := h.nonempty r hr
    exact ⟨_, coerceRangeIndexes_eq_ok.2 ⟨by simp, by simpa using hlt, rfl⟩⟩
  · intro n
    constructor
    · rintro ⟨value, hvalue, hfirst, hlast⟩
      obtain ⟨r, hr, rfl⟩ := List.mem_map.1 hvalue
      exact ⟨r, hr, Int.ofNat_le.1 hfirst, Int.ofNat_lt.1 hlast⟩
    · rintro ⟨r, hr, hfirst, hlast⟩
      exact ⟨_, List.mem_map_of_mem hr, Int.ofNat_le.2 hfirst, Int.ofNat_lt.2 hlast⟩

/-- The merge depends only on the union of the inputs. -/
theorem mergedIndexes_congr {other : List (ℤ × ℤ)} (h : Accepted ranges) (h' : Accepted other)
    (hunion : ∀ n, Covered other n ↔ Covered ranges n) :
    mergedIndexes other = mergedIndexes ranges := by
  obtain ⟨hcanonical, hcovers⟩ := mergedIndexes_spec h
  obtain ⟨hcanonical', hcovers'⟩ := mergedIndexes_spec h'
  refine hcanonical'.eq_of_covers hcanonical ?_
  intro n
  rw [hcovers, hcovers', hunion]

theorem findGaps_eq (h : Accepted ranges) (hduration : 0 < duration) {a b : ℕ} (hab : a ≤ b) :
    ∃ gaps, findGaps ranges a b duration = .ok gaps ∧ Canonical (gaps.map RangePayload.indexes) ∧
      ∀ n, Covers (gaps.map RangePayload.indexes) n ↔ a ≤ n ∧ n < b ∧ ¬ Covered ranges n := by
  obtain ⟨hcanonical, hcovers⟩ := mergedIndexes_spec h
  have hvalid : ¬ ((a : ℤ) < 0 ∨ (b : ℤ) < 0 ∨ (b : ℤ) < a) := by omega
  by_cases hempty : (b : ℤ) = a
  · refine ⟨[], ?_, ⟨fun r hr => absurd hr List.not_mem_nil, List.Pairwise.nil⟩, ?_⟩
    · simp only [findGaps, if_neg hvalid, if_pos hempty]
      rfl
    · intro n
      constructor
      · rintro ⟨r, hr, -⟩
        exact absurd hr List.not_mem_nil
      · rintro ⟨hn, hn', -⟩
        omega
  · refine ⟨(gapsFrom b a (mergedIndexes ranges)).map (payloadOf duration "gap"), ?_, ?_, ?_⟩
    · simp only [findGaps, if_neg hvalid, if_neg hempty, mergeContiguous_eq h hduration]
      show ((gapsFrom _ _ (((mergedIndexes ranges).map
        (payloadOf duration "future")).map RangePayload.indexes)).mapM _) = _
      rw [map_indexes_payloadOf, mapM_rangePayload hduration]
      rfl
    · rw [map_indexes_payloadOf]
      exact canonical_gapsFrom hcanonical
    · intro n
      rw [map_indexes_payloadOf, covers_gapsFrom hcanonical hab, hcovers]

theorem findContiguousRangeCovering_eq (h : Accepted ranges) (hduration : 0 < duration)
    (target : ℕ) :
    (∃ range ∈ (mergedIndexes ranges).map (payloadOf duration "future"),
        findContiguousRangeCovering ranges target duration = .ok (some range)
          ∧ range.indexes.covers target)
      ∨ (findContiguousRangeCovering ranges target duration = .ok none
          ∧ ¬ Covered ranges target) := by
  obtain ⟨hcanonical, hcovers⟩ := mergedIndexes_spec h
  have hfind := find?_payload duration "future" (mergedIndexes ranges) target
  have hresult : findContiguousRangeCovering ranges target duration =
      .ok (((mergedIndexes ranges).map (payloadOf duration "future")).find? fun range =>
        decide ((range.startIndex : ℤ) ≤ target ∧ (target : ℤ) < range.endIndexExclusive)) := by
    simp only [findContiguousRangeCovering, if_neg (show ¬ (target : ℤ) < 0 by omega),
      mergeContiguous_eq h hduration]
    rfl
  cases hcase : ((mergedIndexes ranges).map (payloadOf duration "future")).find? fun range =>
      decide ((range.startIndex : ℤ) ≤ target ∧ (target : ℤ) < range.endIndexExclusive) with
  | some range =>
    rw [hcase] at hfind hresult
    exact Or.inl ⟨range, hfind.1, hresult, hfind.2⟩
  | none =>
    rw [hcase] at hfind hresult
    exact Or.inr ⟨hresult, fun hin => hfind ((hcovers target).2 hin)⟩

end Functions

/-- **The range algebra**: the merge is the canonical list of the union of the
inputs, and the same list for all inputs with that union; the gaps of a request
are the canonical list of what the union leaves over; and a range is found
exactly at the indexes of the union. -/
theorem range_algebra (ranges : List (ℤ × ℤ)) (duration : ℚ) (source : String)
    (h : Accepted ranges) (hduration : 0 < duration) :
    ∃ merged, mergeContiguous ranges duration source = .ok merged
      ∧ Canonical (merged.map RangePayload.indexes)
      ∧ (∀ n, Covers (merged.map RangePayload.indexes) n ↔ Covered ranges n)
      ∧ (∀ other, Accepted other → (∀ n, Covered other n ↔ Covered ranges n) →
          mergeContiguous other duration source = .ok merged)
      ∧ mergeContiguous (merged.map fun range => ((range.startIndex : ℤ),
        (range.endIndexExclusive : ℤ)))
          duration source = .ok merged
      ∧ (∀ a b : ℕ, a ≤ b → ∃ gaps, findGaps ranges a b duration = .ok gaps
          ∧ Canonical (gaps.map RangePayload.indexes)
          ∧ ∀ n, Covers (gaps.map RangePayload.indexes) n ↔ a ≤ n ∧ n < b ∧ ¬ Covered ranges n)
      ∧ (∀ target : ℕ,
          (∃ members range, mergeContiguous ranges duration "future" = .ok members ∧ range ∈ members
              ∧ findContiguousRangeCovering ranges target duration = .ok (some range)
              ∧ range.indexes.covers target)
            ∨ (findContiguousRangeCovering ranges target duration = .ok none
              ∧ ∀ value ∈ ranges, ¬ (value.1 ≤ target ∧ (target : ℤ) < value.2))) := by
  obtain ⟨hcanonical, hcovers⟩ := mergedIndexes_spec h
  refine ⟨(mergedIndexes ranges).map (payloadOf duration source),
    mergeContiguous_eq h hduration source, ?_, ?_, ?_, ?_, ?_, ?_⟩
  · rwa [map_indexes_payloadOf]
  · rwa [map_indexes_payloadOf]
  · intro other hother hunion
    rw [mergeContiguous_eq hother hduration, mergedIndexes_congr h hother hunion]
  · obtain ⟨haccepted, hagain⟩ := accepted_of_canonical hcanonical
    have hunion : ∀ n, Covered ((mergedIndexes ranges).map fun r => ((r.1 : ℤ), (r.2 : ℤ))) n ↔
        Covered ranges n := fun n => (hagain n).trans (hcovers n)
    rw [List.map_map]
    show mergeContiguous ((mergedIndexes ranges).map fun r => ((r.1 : ℤ), (r.2 : ℤ))) _ _ = _
    rw [mergeContiguous_eq haccepted hduration, mergedIndexes_congr h haccepted hunion]
  · intro a b hab
    exact findGaps_eq h hduration hab
  · intro target
    obtain ⟨range, hmem, hfound, hin⟩ | ⟨hnone, hout⟩ :=
      findContiguousRangeCovering_eq h hduration target
    · exact Or.inl ⟨_, range, mergeContiguous_eq h hduration "future", hmem, hfound, hin⟩
    · exact Or.inr ⟨hnone, fun value hvalue hin => hout ⟨value, hvalue, hin⟩⟩

theorem range_algebra_touching :
    ∃ merged, mergeContiguous [(3, 5), (0, 3)] 2 "future" = .ok merged
      ∧ Canonical (merged.map RangePayload.indexes) := by
  have haccepted : Accepted [(3, 5), (0, 3)] := by
    intro value hvalue
    simp only [List.mem_cons, List.not_mem_nil, or_false] at hvalue
    obtain rfl | rfl := hvalue
    · exact ⟨(3, 5), rfl⟩
    · exact ⟨(0, 3), rfl⟩
  obtain ⟨merged, hmerged, hcanonical, -⟩ :=
    range_algebra [(3, 5), (0, 3)] 2 "future" haccepted (by norm_num)
  exact ⟨merged, hmerged, hcanonical⟩

end SharedOutput
