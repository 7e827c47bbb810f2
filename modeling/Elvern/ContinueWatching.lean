/-
The rail of movies to go on with (`library_home_curation_service.py`, `library_hidden_service.py`,
`library_movie_identity_service.py`).

Copies of one movie share a group key.  The rail shows a movie at most once, in its best copy, with
the progress of the copy that was watched last; hidden movies do not appear.

* `dedupeRows` — the best copy of each movie, and `visibleRows` what is left after the hidden ones;
* `resolveContinueWatchingRows` — the rows with progress, moved to the visible copies;
* `selectContinueWatchingRows` — the most watched movie, and then the most recent ones;
* `fill_eq` — the loop of the selection takes the first rows of the sorted list;
* `continue_rail` — what the rail shows, and that nothing more recent is left out.
-/
import Mathlib.Data.List.Sort
import Mathlib.Data.List.MinMax
import Mathlib.Data.List.Dedup
import Mathlib.Data.Prod.Lex
import Mathlib.Algebra.Order.Ring.Rat
import Mathlib.Tactic.Common

namespace ContinueWatching

/-- A row of the library with its progress; `details` is what the title, the year and the quality
are read from. -/
structure MediaRow (ι : Type) where
  id : ℕ
  details : ι
  progressSeconds : ℚ
  progressDurationSeconds : Option ℚ
  completed : Bool
  progressUpdatedAt : Option String
  watchSecondsTotal : ℚ
  lastWatchEventEpoch : ℤ
  lastTrackingEventEpoch : ℤ
  deriving DecidableEq

/-- `CONTINUE_WATCHING_MAX_ITEMS` -/
def continueWatchingMaxItems : ℕ := 6

/-! ### Python's `max` and `sorted` -/

section Sorting

variable {α β : Type} [LinearOrder β]

/-- `max` with a key; the first one where several are greatest. -/
def maxBy (key : α → β) (rows : List α) : Option α := rows.argmax key

/-- `sorted` with a key, in reverse. -/
def sortedDesc (key : α → β) (rows : List α) : List α :=
  rows.mergeSort fun a b => decide (key b ≤ key a)

variable {key : α → β} {rows : List α} {a : α}

theorem mem_of_maxBy (h : maxBy key rows = some a) : a ∈ rows := List.argmax_mem h

theorem le_of_maxBy (h : maxBy key rows = some a) : ∀ b ∈ rows, key b ≤ key a :=
  fun _ hb => List.le_of_mem_argmax hb h

theorem eq_nil_of_maxBy (h : maxBy key rows = none) : rows = [] := List.argmax_eq_none.mp h

theorem perm_sortedDesc (key : α → β) (rows : List α) : List.Perm (sortedDesc key rows) rows :=
  List.mergeSort_perm ..

theorem pairwise_sortedDesc (key : α → β) (rows : List α) :
    (sortedDesc key rows).Pairwise fun x y => key y ≤ key x := by
  have htrans : ∀ a b c : α, decide (key b ≤ key a) = true → decide (key c ≤ key b) = true →
      decide (key c ≤ key a) = true :=
    fun a b c hab hbc => decide_eq_true (le_trans (of_decide_eq_true hbc) (of_decide_eq_true hab))
  have hsorted :=
    List.pairwise_mergeSort htrans (fun a b => by simpa using le_total (key b) (key a)) rows
  exact hsorted.imp fun h => of_decide_eq_true h

/-- What the first `k` of a sorted list leave out. -/
theorem top_of_sorted {l : List α} {k : ℕ}
    (hsorted : l.Pairwise fun x y => key y ≤ key x) (ha : a ∈ l)
    (hleft : a ∉ l.take k) : (l.take k).length = k ∧ ∀ x ∈ l.take k, key a ≤ key x := by
  have hsplit := List.take_append_drop k l
  have hdrop : a ∈ l.drop k := by
    rw [← hsplit] at ha
    exact (List.mem_append.mp ha).resolve_left hleft
  refine ⟨List.length_take_of_le ?_, fun x hx => ?_⟩
  · by_contra hshort
    rw [List.drop_eq_nil_of_le (Nat.le_of_lt (Nat.lt_of_not_ge hshort))] at hdrop
    cases hdrop
  · rw [← hsplit] at hsorted
    exact (List.pairwise_append.mp hsorted).2.2 x hx a hdrop

end Sorting

/-! ### The functions -/

/-- What the rows are compared by: `_dedupe_group_key`, the qualities of `_quality_sort_key`,
`utc_iso_to_epoch_seconds`, and the two hidden filters. -/
structure Reading (ι κ : Type) where
  dedupeGroupKey : ι → Option String
  quality : ι → κ
  utcIsoToEpochSeconds : Option String → ℤ
  globallyHidden : ℕ → ι → Bool
  manuallyHidden : ℕ → ι → Bool

section Definitions

variable {ι κ : Type} [LinearOrder κ] (rd : Reading ι κ)

/-- `_quality_sort_key` -/
def qualitySortKey (row : MediaRow ι) : κ ×ₗ ℕ := toLex (rd.quality row.details, row.id)

/-- The rows of a group. -/
def groupRows (rows : List (MediaRow ι)) (key : String) : List (MediaRow ι) :=
  rows.filter fun row => decide (rd.dedupeGroupKey row.details = some key)

/-- `_dedupe_rows`: the rows without a group, and the best row of each group at the place of its
first one. -/
def dedupeRows (rows : List (MediaRow ι)) : List (MediaRow ι) :=
  let passthrough := rows.zipIdx.filterMap fun (row, index) =>
    if rd.dedupeGroupKey row.details = none then some (index, row) else none
  let representatives :=
      (rows.filterMap fun row => rd.dedupeGroupKey row.details).dedup.filterMap fun key =>
    (maxBy (qualitySortKey rd) (groupRows rd rows key)).map fun row =>
      (rows.findIdx fun row => decide (rd.dedupeGroupKey row.details = some key), row)
  ((passthrough ++ representatives).mergeSort fun a b => decide (a.1 ≤ b.1)).map Prod.snd

/-- The rows of `_build_visible_representative_context`. -/
def visibleRows (hideDuplicateMovies : Bool) (rows : List (MediaRow ι)) : List (MediaRow ι) :=
  ((if hideDuplicateMovies then dedupeRows rd rows else rows).filter fun row =>
    !rd.globallyHidden row.id row.details).filter fun row => !rd.manuallyHidden row.id row.details

/-- `representatives_by_group`; a later row replaces an earlier one. -/
def representativeOf (visible : List (MediaRow ι)) (key : String) : Option (MediaRow ι) :=
  (groupRows rd visible key).getLast?

/-- The `target_row` of a row with progress. -/
def targetRow (hideDuplicateMovies : Bool) (visible : List (MediaRow ι)) (row : MediaRow ι) :
    Option (MediaRow ι) :=
  let own := if visible.any fun v => v.id == row.id then some row else none
  if hideDuplicateMovies then
    match rd.dedupeGroupKey row.details with
    | some key => representativeOf rd visible key
    | none => own
  else own

/-- `_merge_continue_progress_row` -/
def mergeContinueProgressRow (representative source : MediaRow ι) : MediaRow ι :=
  { source with id := representative.id, details := representative.details }

/-- `_resolve_continue_watching_rows`; `seen` are the `seen_visible_ids`. -/
def resolveContinueWatchingRows (target : MediaRow ι → Option (MediaRow ι)) :
    List (MediaRow ι) → List ℕ → List (MediaRow ι)
  | [], _ => []
  | row :: rest, seen =>
    match target row with
    | none => resolveContinueWatchingRows target rest seen
    | some visible =>
      if visible.id ∈ seen then resolveContinueWatchingRows target rest seen
      else mergeContinueProgressRow visible row :: resolveContinueWatchingRows target rest
        (visible.id :: seen)

/-- The aggregates of the watch and tracking events. -/
structure Activity where
  watchSecondsTotal : ℕ → ℚ
  lastWatchEventEpoch : ℕ → ℤ
  lastTrackingEventEpoch : ℕ → ℤ

/-- `_decorate_continue_rows` -/
def decorateContinueRows (activity : Activity) (rows : List (MediaRow ι)) : List (MediaRow ι) :=
  rows.map fun row =>
    { row with
      watchSecondsTotal := max row.watchSecondsTotal (activity.watchSecondsTotal row.id)
      lastWatchEventEpoch := activity.lastWatchEventEpoch row.id
      lastTrackingEventEpoch := activity.lastTrackingEventEpoch row.id }

/-- `historical_watch_seconds` -/
def historicalWatchSeconds (row : MediaRow ι) : ℚ := max row.watchSecondsTotal row.progressSeconds

/-- `universal_activity_epoch` -/
def universalActivityEpoch (row : MediaRow ι) : ℤ :=
  max (rd.utcIsoToEpochSeconds row.progressUpdatedAt)
    (max row.lastWatchEventEpoch row.lastTrackingEventEpoch)

/-- The key of the special slot. -/
def watchedKey (row : MediaRow ι) : ℚ ×ₗ (ℤ ×ₗ ℕ) :=
  toLex (historicalWatchSeconds row, toLex (universalActivityEpoch rd row, row.id))

/-- The key of the other slots. -/
def recentKey (row : MediaRow ι) : ℤ ×ₗ (ℚ ×ₗ ℕ) :=
  toLex (universalActivityEpoch rd row, toLex (historicalWatchSeconds row, row.id))

/-- The loop of `_select_continue_watching_rows`. -/
def fill : List (MediaRow ι) → List (MediaRow ι) → List (MediaRow ι)
  | [], selected => selected
  | row :: rest, selected =>
    if row.id ∈ selected.map MediaRow.id then fill rest selected
    else if continueWatchingMaxItems ≤ (selected ++ [row]).length then selected ++ [row]
    else fill rest (selected ++ [row])

/-- `_select_continue_watching_rows` -/
def selectContinueWatchingRows (rows : List (MediaRow ι)) : List (MediaRow ι) :=
  match maxBy (watchedKey rd) rows with
  | none => []
  | some specialSlot =>
    let remaining := sortedDesc (recentKey rd) rows
    (fill remaining [specialSlot]).take continueWatchingMaxItems

/-- The resolved rows of `build_library_view_plan`. -/
def resolvedRows (hideDuplicateMovies : Bool) (activity : Activity)
    (allRows continueRows : List (MediaRow ι)) : List (MediaRow ι) :=
  resolveContinueWatchingRows (targetRow rd hideDuplicateMovies
    (visibleRows rd hideDuplicateMovies allRows)) (decorateContinueRows activity continueRows) []

/-- The rail of `build_library_view_plan`, before the filters of the page. -/
def continueRail (hideDuplicateMovies : Bool) (activity : Activity)
    (allRows continueRows : List (MediaRow ι)) : List (MediaRow ι) :=
  selectContinueWatchingRows rd (resolvedRows rd hideDuplicateMovies activity allRows continueRows)

end Definitions

variable {ι κ : Type} [LinearOrder κ] {rd : Reading ι κ} {rows : List (MediaRow ι)}
  {row : MediaRow ι}

/-! ### The best copies -/

omit [LinearOrder κ] in
theorem mem_groupRows {key : String} :
    row ∈ groupRows rd rows key ↔ row ∈ rows ∧ rd.dedupeGroupKey row.details = some key := by
  rw [groupRows, List.mem_filter, decide_eq_true_eq]

/-- What the duplicate filter keeps. -/
theorem mem_dedupeRows : row ∈ dedupeRows rd rows ↔
    (row ∈ rows ∧ rd.dedupeGroupKey row.details = none) ∨
      ∃ key, maxBy (qualitySortKey rd) (groupRows rd rows key) = some row := by
  unfold dedupeRows
  dsimp only
  rw [List.mem_map]
  constructor
  · rintro ⟨⟨index, row'⟩, hmem, rfl⟩
    rcases List.mem_append.mp (List.mem_mergeSort.mp hmem) with hmem | hmem
    · obtain ⟨⟨row₀, index₀⟩, hzip, hsome⟩ := List.mem_filterMap.mp hmem
      dsimp only at hsome
      split at hsome
      · next hnone =>
        cases hsome
        exact .inl ⟨(List.mem_zipIdx' hzip).2 ▸ List.getElem_mem _, hnone⟩
      · cases hsome
    · obtain ⟨key, -, hsome⟩ := List.mem_filterMap.mp hmem
      obtain ⟨row₀, hbest, heq⟩ := Option.map_eq_some_iff.mp hsome
      cases heq
      exact .inr ⟨key, hbest⟩
  · rintro (⟨hmem, hnone⟩ | ⟨key, hbest⟩)
    · obtain ⟨index, hindex, hget⟩ := List.mem_iff_getElem.mp hmem
      refine ⟨(index, row), List.mem_mergeSort.mpr (List.mem_append_left _ ?_), rfl⟩
      refine List.mem_filterMap.mpr ⟨(row, index), ?_, if_pos hnone⟩
      exact List.mk_mem_zipIdx_iff_getElem?.mpr (List.getElem?_eq_some_iff.mpr ⟨hindex, hget⟩)
    · obtain ⟨hmem, hkey⟩ := mem_groupRows.mp (mem_of_maxBy hbest)
      refine ⟨(rows.findIdx fun row => decide (rd.dedupeGroupKey row.details = some key), row),
        List.mem_mergeSort.mpr (List.mem_append_right _ ?_), rfl⟩
      refine List.mem_filterMap.mpr ⟨key,
        List.mem_dedup.mpr (List.mem_filterMap.mpr ⟨row, hmem, hkey⟩), ?_⟩
      rw [hbest]
      rfl

/-- A row that the duplicate filter keeps is the best copy of its movie, and the only one kept. -/
theorem best_of_mem_dedupeRows {key : String} (h : row ∈ dedupeRows rd rows)
    (hkey : rd.dedupeGroupKey row.details = some key) :
    maxBy (qualitySortKey rd) (groupRows rd rows key) = some row := by
  rcases mem_dedupeRows.mp h with ⟨-, hnone⟩ | ⟨key', hbest⟩
  · rw [hkey] at hnone
    cases hnone
  · have hkey' := (mem_groupRows.mp (mem_of_maxBy hbest)).2
    rw [hkey] at hkey'
    cases hkey'
    exact hbest

/-! ### The rows that are resolved -/

theorem resolve_nodup {target : MediaRow ι → Option (MediaRow ι)} {seen : List ℕ} :
    ((resolveContinueWatchingRows target rows seen).map MediaRow.id).Nodup ∧
      ∀ r ∈ resolveContinueWatchingRows target rows seen, r.id ∉ seen := by
  induction rows generalizing seen with
  | nil => exact ⟨List.nodup_nil, fun r hr => by cases hr⟩
  | cons row rest ih =>
    unfold resolveContinueWatchingRows
    split
    · exact ih
    next visible _ =>
    split
    · exact ih
    next hnew =>
    obtain ⟨hnodup, hfresh⟩ := @ih (visible.id :: seen)
    refine ⟨?_, fun r hr => ?_⟩
    · rw [List.map_cons, List.nodup_cons]
      refine ⟨fun hmem => ?_, hnodup⟩
      obtain ⟨r, hr, hid⟩ := List.mem_map.mp hmem
      have hnot := hfresh r hr
      rw [hid] at hnot
      exact hnot List.mem_cons_self
    · rcases List.mem_cons.mp hr with rfl | hr
      · exact hnew
      · exact fun hseen => hfresh r hr (List.mem_cons_of_mem _ hseen)

/-- A resolved row comes from the first row that is moved to its movie. -/
theorem source_of_resolved {target : MediaRow ι → Option (MediaRow ι)} {seen : List ℕ}
    {r : MediaRow ι} (hr : r ∈ resolveContinueWatchingRows target rows seen) :
    ∃ before source after visible, rows = before ++ source :: after ∧ target source = some visible ∧
      r = mergeContinueProgressRow visible source ∧
      ∀ earlier ∈ before, ∀ v, target earlier = some v → v.id ≠ visible.id := by
  induction rows generalizing seen with
  | nil => cases hr
  | cons row rest ih =>
    unfold resolveContinueWatchingRows at hr
    split at hr
    · next hnone =>
      obtain ⟨before, source, after, visible, rfl, htarget, heq, hfirst⟩ := ih hr
      refine ⟨row :: before, source, after, visible, rfl, htarget, heq, fun earlier he v hv => ?_⟩
      rcases List.mem_cons.mp he with rfl | he
      · rw [hnone] at hv
        cases hv
      · exact hfirst earlier he v hv
    next visible hvisible =>
    -- The row is skipped, or takes its movie: either way the movie of `r` is another one.
    have hskip : ∀ seen', visible.id ∈ seen' → r ∈ resolveContinueWatchingRows target rest seen' →
        ∃ before source after visible, row :: rest = before ++ source :: after ∧
          target source = some visible ∧ r = mergeContinueProgressRow visible source ∧
          ∀ earlier ∈ before, ∀ v, target earlier = some v → v.id ≠ visible.id := by
      intro seen' hseen hr'
      have hother := resolve_nodup.2 r hr'
      obtain ⟨before, source, after, visible', hrest, htarget, heq, hfirst⟩ := ih hr'
      refine ⟨row :: before, source, after, visible', by rw [hrest]; rfl, htarget, heq,
        fun earlier he v hv hsame => ?_⟩
      rcases List.mem_cons.mp he with rfl | he
      · cases hvisible.symm.trans hv
        refine hother ?_
        have hid : r.id = visible'.id := by rw [heq]; rfl
        rw [hid, ← hsame]
        exact hseen
      · exact hfirst earlier he v hv hsame
    split at hr
    · next hold => exact hskip seen hold hr
    · rcases List.mem_cons.mp hr with rfl | hr
      · exact ⟨[], row, rest, visible, rfl, hvisible, rfl, fun earlier he => by cases he⟩
      · exact hskip _ List.mem_cons_self hr

/-- A row that is moved to a movie leaves it among the resolved ones. -/
theorem resolved_of_target {target : MediaRow ι → Option (MediaRow ι)} {seen : List ℕ}
    {visible : MediaRow ι}
    (hrow : row ∈ rows) (htarget : target row = some visible) (hnew : visible.id ∉ seen) :
    ∃ r ∈ resolveContinueWatchingRows target rows seen, r.id = visible.id := by
  induction rows generalizing seen with
  | nil => cases hrow
  | cons first rest ih =>
    unfold resolveContinueWatchingRows
    split
    · next hnone =>
      rcases List.mem_cons.mp hrow with rfl | hrow
      · rw [htarget] at hnone
        cases hnone
      · exact ih hrow hnew
    next visible' hvisible =>
    split
    · next hold =>
      rcases List.mem_cons.mp hrow with rfl | hrow
      · cases hvisible.symm.trans htarget
        exact absurd hold hnew
      · exact ih hrow hnew
    · by_cases hsame : visible'.id = visible.id
      · exact ⟨_, List.mem_cons_self, hsame⟩
      · rcases List.mem_cons.mp hrow with rfl | hrow
        · cases hvisible.symm.trans htarget
          exact absurd rfl hsame
        · have hfresh : visible.id ∉ visible'.id :: seen := fun hmem => by
            rcases List.mem_cons.mp hmem with heq | hmem
            · exact hsame heq.symm
            · exact hnew hmem
          obtain ⟨r, hr, hid⟩ := ih hrow hfresh
          exact ⟨r, List.mem_cons_of_mem _ hr, hid⟩

/-! ### The rows that are selected -/

/-- **The loop takes the first rows.**  Where no two rows have one id, the loop fills the selection
with the rows that it does not have yet, up to its size. -/
theorem fill_eq {selected : List (MediaRow ι)} (hnodup : (rows.map MediaRow.id).Nodup)
    (hroom : selected.length < continueWatchingMaxItems) :
    fill rows selected = selected ++
      (rows.filter fun row => decide (row.id ∉ selected.map MediaRow.id)).take
        (continueWatchingMaxItems - selected.length) := by
  induction rows generalizing selected with
  | nil => simp [fill]
  | cons row rest ih =>
    obtain ⟨hfresh, hnodup⟩ := List.nodup_cons.mp (List.map_cons ▸ hnodup)
    unfold fill
    split
    · next hseen =>
      rw [List.filter_cons_of_neg (by simpa using hseen)]
      exact ih hnodup hroom
    next hnew =>
    rw [List.filter_cons_of_pos (by simpa using hnew)]
    have hlength : (selected ++ [row]).length = selected.length + 1 := by simp
    split
    · next hfull =>
      rw [hlength] at hfull
      have hone : continueWatchingMaxItems - selected.length = 0 + 1 := by omega
      rw [hone, List.take_succ_cons, List.take_zero]
    · next hmore =>
      rw [hlength] at hmore
      have hsucc : continueWatchingMaxItems - selected.length =
          (continueWatchingMaxItems - (selected ++ [row]).length) + 1 := by
        rw [hlength]
        omega
      rw [ih hnodup (by rw [hlength]; omega), hsucc, List.take_succ_cons, List.append_assoc]
      refine congrArg (selected ++ row :: List.take _ ·) (List.filter_congr fun other hother => ?_)
      -- No later row has the id of this one.
      have hne : other.id ≠ row.id := fun heq => hfresh (heq ▸ List.mem_map_of_mem hother)
      simp [hne]

omit [LinearOrder κ] in
/-- What is selected: the most watched row, and the most recent of the others. -/
theorem select_eq (hnodup : (rows.map MediaRow.id).Nodup) {special : MediaRow ι}
    (hspecial : maxBy (watchedKey rd) rows = some special) :
    selectContinueWatchingRows rd rows = special ::
      ((sortedDesc (recentKey rd) rows).filter fun row =>
        decide (row.id ≠ special.id)).take 5 := by
  have hsorted : ((sortedDesc (recentKey rd) rows).map MediaRow.id).Nodup :=
    ((perm_sortedDesc (recentKey rd) rows).map MediaRow.id).nodup_iff.mpr hnodup
  have hfilter : (fun row : MediaRow ι => decide (row.id ∉ [special].map MediaRow.id)) =
      fun row => decide (row.id ≠ special.id) := by
    funext row
    simp
  have hroom : [special].length < continueWatchingMaxItems := show 1 < 6 by omega
  unfold selectContinueWatchingRows
  rw [hspecial]
  dsimp only
  rw [fill_eq hsorted hroom, hfilter, List.singleton_append]
  show special :: ((List.take 5 _).take 5) = _
  rw [List.take_take, min_self]

/-! ### The rail -/

/-- What the rail shows of the rows that are resolved. -/
structure Rail (rd : Reading ι κ) (resolved rail : List (MediaRow ι)) : Prop where
  mem : ∀ tile ∈ rail, tile ∈ resolved
  nodup : (rail.map MediaRow.id).Nodup
  length : rail.length ≤ continueWatchingMaxItems
  special : ∀ r ∈ resolved, ∃ tile, rail.head? = some tile ∧ watchedKey rd r ≤ watchedKey rd tile
  sorted : rail.tail.Pairwise fun x y => recentKey rd y ≤ recentKey rd x
  recent : ∀ r ∈ resolved, r ∉ rail →
    rail.length = continueWatchingMaxItems ∧ ∀ tile ∈ rail.tail, recentKey rd r ≤ recentKey rd tile

omit [LinearOrder κ] in
theorem rail_select (hnodup : (rows.map MediaRow.id).Nodup) :
    Rail rd rows (selectContinueWatchingRows rd rows) := by
  rcases hspecial : maxBy (watchedKey rd) rows with _ | special
  · have hempty : rows = [] := eq_nil_of_maxBy hspecial
    subst hempty
    have hnothing : selectContinueWatchingRows rd ([] : List (MediaRow ι)) = [] := rfl
    rw [hnothing]
    refine ⟨?_, List.nodup_nil, Nat.zero_le _, ?_, .nil, ?_⟩ <;> intro r hr <;> cases hr
  rw [select_eq hnodup hspecial]
  generalize hothers : ((sortedDesc (recentKey rd) rows).filter fun row =>
    decide (row.id ≠ special.id)) = others
  have hmem : ∀ r, r ∈ others ↔ r ∈ rows ∧ r.id ≠ special.id := by
    intro r
    rw [← hothers, List.mem_filter, (perm_sortedDesc (recentKey rd) rows).mem_iff,
      decide_eq_true_eq]
  have hordered : others.Pairwise fun x y => recentKey rd y ≤ recentKey rd x := by
    rw [← hothers]
    exact (pairwise_sortedDesc (recentKey rd) rows).filter _
  have hothersNodup : (others.map MediaRow.id).Nodup := by
    rw [← hothers]
    exact (((perm_sortedDesc (recentKey rd) rows).map MediaRow.id).nodup_iff.mpr hnodup).sublist
      (List.filter_sublist.map MediaRow.id)
  have hspecialMem := mem_of_maxBy hspecial
  refine ⟨fun tile htile => ?_, ?_, ?_, fun r hr => ⟨special, rfl, le_of_maxBy hspecial r hr⟩,
    hordered.sublist (List.take_sublist 5 others), fun r hr hleft => ?_⟩
  · rcases List.mem_cons.mp htile with rfl | htile
    · exact hspecialMem
    · exact ((hmem tile).mp (List.mem_of_mem_take htile)).1
  · rw [List.map_cons, List.nodup_cons]
    refine ⟨fun hin => ?_, hothersNodup.sublist ((List.take_sublist 5 others).map MediaRow.id)⟩
    obtain ⟨r, hr, hid⟩ := List.mem_map.mp hin
    exact ((hmem r).mp (List.mem_of_mem_take hr)).2 hid
  · rw [List.length_cons]
    have hle := List.length_take_le 5 others
    exact Nat.succ_le_succ hle
  · rw [List.mem_cons, not_or] at hleft
    -- A row with the id of the special slot is the special slot.
    have hid : r.id ≠ special.id := fun heq =>
      hleft.1 (List.inj_on_of_nodup_map hnodup hr hspecialMem heq)
    obtain ⟨hlength, hle⟩ := top_of_sorted hordered ((hmem r).mpr ⟨hr, hid⟩) hleft.2
    exact ⟨by rw [List.length_cons, hlength]; rfl, hle⟩

/-- The movie that a row with progress is moved to is visible; it is the row's own copy, or, where
duplicates are hidden, the best copy of the movie. -/
theorem target_cases {hide : Bool} {allRows : List (MediaRow ι)} {visible : MediaRow ι}
    (h : targetRow rd hide (visibleRows rd hide allRows) row = some visible) :
    (∃ v ∈ visibleRows rd hide allRows, v.id = visible.id) ∧
      (visible = row ∨ hide = true ∧ ∃ key, rd.dedupeGroupKey row.details = some key ∧
        maxBy (qualitySortKey rd) (groupRows rd allRows key) = some visible) := by
  have hown : ∀ {visible : MediaRow ι},
      (if (visibleRows rd hide allRows).any fun v => v.id == row.id then
      some row else none) = some visible → (∃ v ∈ visibleRows rd hide allRows, v.id = visible.id) ∧
        visible = row := by
    intro visible hif
    split at hif
    · next hany =>
      cases hif
      obtain ⟨v, hv, hid⟩ := List.any_eq_true.mp hany
      exact ⟨⟨v, hv, beq_iff_eq.mp hid⟩, rfl⟩
    · cases hif
  unfold targetRow at h
  dsimp only at h
  split at h
  next hhide =>
    split at h
    · next key hkey =>
      obtain ⟨hvisible, hsame⟩ := mem_groupRows.mp (List.mem_of_getLast? h)
      refine ⟨⟨visible, hvisible, rfl⟩, .inr ⟨hhide, key, hkey, ?_⟩⟩
      have hkept := (List.mem_filter.mp (List.mem_filter.mp hvisible).1).1
      rw [if_pos hhide] at hkept
      exact best_of_mem_dedupeRows hkept hsame
    · exact ⟨(hown h).1, .inl (hown h).2⟩
  · exact ⟨(hown h).1, .inl (hown h).2⟩

/-- **The rail.**  It shows at most six visible movies, each of them once, in its own copy or in the
best one, with the progress of the first row of the query that is about it; the first movie is the
one watched most, the others are the most recent ones, the latest first. -/
theorem continue_rail (rd : Reading ι κ) (hide : Bool) (activity : Activity)
    (allRows continueRows : List (MediaRow ι)) :
    Rail rd (resolvedRows rd hide activity allRows continueRows)
        (continueRail rd hide activity allRows continueRows) ∧
      (∀ r ∈ resolvedRows rd hide activity allRows continueRows,
        (∃ v ∈ visibleRows rd hide allRows, v.id = r.id) ∧
        ∃ before source after, decorateContinueRows activity continueRows =
          before ++ source :: after ∧
          (∃ visible, r = mergeContinueProgressRow visible source ∧
            (visible = source ∨ hide = true ∧
            ∃ key, rd.dedupeGroupKey source.details = some key ∧
              maxBy (qualitySortKey rd) (groupRows rd allRows key) = some visible)) ∧
          ∀ earlier ∈ before, ∀ v, targetRow rd hide (visibleRows rd hide allRows)
            earlier = some v → v.id ≠ r.id) ∧
      ∀ row ∈ decorateContinueRows activity continueRows, ∀ visible,
        targetRow rd hide (visibleRows rd hide allRows) row = some visible →
          ∃ r ∈ resolvedRows rd hide activity allRows continueRows, r.id = visible.id := by
  refine ⟨rail_select resolve_nodup.1, fun r hr => ?_, fun row hrow visible htarget => ?_⟩
  · obtain ⟨before, source, after, visible, hrows, htarget, rfl, hfirst⟩ := source_of_resolved hr
    obtain ⟨hvisible, hcopy⟩ := target_cases htarget
    exact ⟨hvisible, before, source, after, hrows, ⟨visible, rfl, hcopy⟩, hfirst⟩
  · exact resolved_of_target hrow htarget List.not_mem_nil

end ContinueWatching
