/-
The ranges of the playback timeline (`playbackTimelineRanges.js`).

Ranges are joined when at most 0.05 seconds lie between them.  With 0.05 seconds
added to each end, ranges are joined exactly where they meet, so that a merged
list is determined by what the lengthened ranges cover.

* `coerceRange`, `mergeRanges`, `clampRangesToDuration`, `subtractRanges`,
  `computePlayedNotCachedRanges` -- the functions, on finite numbers;
* `Canonical` -- the lists that merging returns;
* `mergeRanges_spec` -- a merged list, and what it covers;
* `mergeRanges_congr`, `mergeRanges_of_canonical` -- there is only one, and merging keeps it;
* `not_covered_subtractRanges` -- what was taken away is not there any more;
* `timeline_range_algebra` -- the three functions together.
-/
import Mathlib.Algebra.Order.Field.Basic
import Mathlib.Algebra.Order.Field.Rat
import Mathlib.Tactic.Linarith
import Mathlib.Tactic.NormNum
import Elvern.ClosedIntervals

open ClosedIntervals

namespace TimelineRanges

/-- A range, or an entry that may be none. -/
abbrev Range := ℚ × ℚ

def rangeMergeEpsilonSeconds : ℚ := 1 / 20

/-! ### The functions -/

def coerceRange (start stop : ℚ) : Option Range :=
  if stop ≤ start then none else some (max 0 start, max start stop)

/-- The loop of `mergeRanges`, with the last range that it has put out. -/
def mergeFrom : Range → List Range → List Range
  | previous, [] => [previous]
  | previous, current :: rest =>
    if current.1 ≤ previous.2 + rangeMergeEpsilonSeconds then
      mergeFrom (previous.1, max previous.2 current.2) rest
    else previous :: mergeFrom current rest

/-- `.map((entry) => coerceRange(entry[0], entry[1])).filter(Boolean)` -/
def coerced (ranges : List Range) : List Range :=
  ranges.filterMap fun entry => coerceRange entry.1 entry.2

def startLe (a b : Range) : Bool := decide (a.1 ≤ b.1)

def mergeRanges (ranges : List Range) : List Range :=
  match (coerced ranges).mergeSort startLe with
  | [] => []
  | first :: rest => mergeFrom first rest

/-- What `clampRangesToDuration` keeps of an entry. -/
def clampEntry (duration : ℚ) (entry : Range) : Option Range :=
  (coerceRange entry.1 entry.2).bind fun range =>
    let clampedStart := max 0 (min duration range.1)
    let clampedEnd := max clampedStart (min duration range.2)
    if clampedStart + rangeMergeEpsilonSeconds < clampedEnd then some (clampedStart, clampedEnd)
    else none

def clampRangesToDuration (ranges : List Range) (duration : ℚ) : List Range :=
  if duration ≤ 0 then [] else mergeRanges (ranges.filterMap (clampEntry duration))

/-- What is left behind the cursor when the inner loop of `subtractRanges` ends. -/
def lastPiece (stop cursor : ℚ) : List Range := if cursor < stop then [(cursor, stop)] else []

/-- The inner loop of `subtractRanges`, from the cursor on. -/
def cutFrom (stop : ℚ) : ℚ → List Range → List Range
  | cursor, [] => lastPiece stop cursor
  | cursor, sub :: rest =>
    if sub.2 ≤ cursor then cutFrom stop cursor rest
    else if stop ≤ sub.1 then lastPiece stop cursor
    else
      let next := max cursor sub.2
      let later := if stop ≤ next then lastPiece stop next else cutFrom stop next rest
      if cursor < sub.1 then (cursor, min stop sub.1) :: later else later

def subtractRanges (minuendRanges subtrahendRanges : List Range) : List Range :=
  let minuend := mergeRanges minuendRanges
  let subtrahend := mergeRanges subtrahendRanges
  if minuend = [] then []
  else if subtrahend = [] then minuend
  else mergeRanges (minuend.flatMap fun range => cutFrom range.2 range.1 subtrahend)

def computePlayedNotCachedRanges (playedRanges bufferedRanges : List Range)
    (durationSeconds : ℚ) : List Range :=
  subtractRanges (clampRangesToDuration playedRanges durationSeconds)
    (clampRangesToDuration bufferedRanges durationSeconds)

/-! ### Merged lists -/

/-- Ranges that are not empty, ascend, and lie more than 0.05 seconds apart. -/
structure Canonical (l : List Range) : Prop where
  proper : ∀ r ∈ l, 0 ≤ r.1 ∧ r.1 < r.2
  apart : l.Pairwise fun a b => a.2 + rangeMergeEpsilonSeconds < b.1

/-- What the ranges of a list cover. -/
def Covered (l : List Range) (t : ℚ) : Prop := ∃ r ∈ l, r.1 ≤ t ∧ t ≤ r.2

/-- The points of the entries; an entry without length has none. -/
def Input (l : List Range) (t : ℚ) : Prop := ∃ e ∈ l, e.1 < e.2 ∧ e.1 ≤ t ∧ t ≤ e.2

/-- No range of the list ends before the timeline begins. -/
def Timely (l : List Range) : Prop := ∀ e ∈ l, e.1 < e.2 → 0 < e.2

theorem epsilon_pos : 0 < rangeMergeEpsilonSeconds := by
  rw [rangeMergeEpsilonSeconds]
  norm_num

section Merging

variable {l l' rest : List Range} {r previous : Range} {t : ℚ}

/-- The range with 0.05 seconds added to its end. -/
def slack (r : Range) : Range := (r.1, r.2 + rangeMergeEpsilonSeconds)

theorem slack_injective : Function.Injective slack := by
  intro a b h
  obtain ⟨hfirst, hlast⟩ := Prod.mk.inj h
  exact Prod.ext hfirst (add_right_cancel hlast)

theorem mem_union_slack :
    t ∈ union (l.map slack) ↔ ∃ r ∈ l, r.1 ≤ t ∧ t ≤ r.2 + rangeMergeEpsilonSeconds := by
  rw [mem_union]
  constructor
  · rintro ⟨q, hq, ht⟩
    obtain ⟨r, hr, rfl⟩ := List.mem_map.1 hq
    exact ⟨r, hr, ht⟩
  · rintro ⟨r, hr, ht⟩
    exact ⟨slack r, List.mem_map_of_mem hr, ht⟩

theorem Canonical.apart_slack (h : Canonical l) : Apart (l.map slack) where
  nonempty := by
    intro q hq
    obtain ⟨r, hr, rfl⟩ := List.mem_map.1 hq
    have hlt := (h.proper r hr).2
    have hpos := epsilon_pos
    show r.1 ≤ r.2 + rangeMergeEpsilonSeconds
    linarith
  apart := List.pairwise_map.2 h.apart

/-- On lengthened ranges the loop is the sweep. -/
theorem map_slack_mergeFrom :
    (mergeFrom previous rest).map slack = sweep (slack previous) (rest.map slack) := by
  induction rest generalizing previous with
  | nil => rfl
  | cons current rest ih =>
    rw [mergeFrom, List.map_cons, sweep]
    by_cases htouch : current.1 ≤ previous.2 + rangeMergeEpsilonSeconds
    · have hmeet : (slack current).1 ≤ (slack previous).2 := htouch
      rw [if_pos htouch, if_pos hmeet, ih]
      congr 1
      exact Prod.ext rfl (max_add_add_right _ _ _).symm
    · have hmeet : ¬ (slack current).1 ≤ (slack previous).2 := htouch
      rw [if_neg htouch, if_neg hmeet, List.map_cons, ih]

theorem mergeFrom_proper (hprevious : 0 ≤ previous.1 ∧ previous.1 < previous.2)
    (hrest : ∀ r ∈ rest, 0 ≤ r.1 ∧ r.1 < r.2) :
    ∀ r ∈ mergeFrom previous rest, 0 ≤ r.1 ∧ r.1 < r.2 := by
  induction rest generalizing previous with
  | nil =>
    intro r hr
    rw [List.mem_singleton.1 hr]
    exact hprevious
  | cons current rest ih =>
    obtain ⟨hcurrent, hlater⟩ := List.forall_mem_cons.1 hrest
    rw [mergeFrom]
    split_ifs with htouch
    · exact @ih (previous.1, max previous.2 current.2)
        ⟨hprevious.1, lt_max_of_lt_left hprevious.2⟩ hlater
    · exact List.forall_mem_cons.2 ⟨hprevious, ih hcurrent hlater⟩

theorem coerceRange_eq (hlt : r.1 < r.2) : coerceRange r.1 r.2 = some (max 0 r.1, r.2) := by
  rw [coerceRange, if_neg (not_le.2 hlt), max_eq_right hlt.le]

theorem mem_coerced : r ∈ coerced l ↔ ∃ e ∈ l, e.1 < e.2 ∧ (max 0 e.1, e.2) = r := by
  rw [coerced, List.mem_filterMap]
  constructor
  · rintro ⟨e, he, hcoerce⟩
    have hlt : e.1 < e.2 := by
      by_contra hle
      rw [coerceRange, if_pos (not_lt.1 hle)] at hcoerce
      cases hcoerce
    rw [coerceRange_eq hlt] at hcoerce
    exact ⟨e, he, hlt, Option.some.inj hcoerce⟩
  · rintro ⟨e, he, hlt, rfl⟩
    exact ⟨e, he, coerceRange_eq hlt⟩

theorem mergeRanges_nil : mergeRanges [] = [] := by
  rw [mergeRanges, coerced, List.filterMap_nil, List.mergeSort_nil]

theorem mergeRanges_singleton (hlt : r.1 < r.2) : mergeRanges [r] = [(max 0 r.1, r.2)] := by
  rw [mergeRanges, coerced, List.filterMap_cons, coerceRange_eq hlt, List.filterMap_nil,
    List.mergeSort_singleton]
  rfl

theorem Timely.coerced_proper (h : Timely l) : ∀ r ∈ coerced l, 0 ≤ r.1 ∧ r.1 < r.2 := by
  intro r hr
  obtain ⟨e, he, hlt, rfl⟩ := mem_coerced.1 hr
  exact ⟨le_max_left _ _, max_lt (h e he hlt) hlt⟩

/-- **Merging**: the result is canonical, and covers what the entries cover when 0.05
seconds are added to all ends. -/
theorem mergeRanges_spec (h : Timely l) :
    Canonical (mergeRanges l)
      ∧ union ((mergeRanges l).map slack) = union ((coerced l).map slack) := by
  have hperm := List.mergeSort_perm (coerced l) startLe
  have hsorted : ((coerced l).mergeSort startLe).Pairwise fun a b => a.1 ≤ b.1 := by
    refine (@List.pairwise_mergeSort _ startLe ?_ ?_ (coerced l)).imp of_decide_eq_true
    · intro a b c hab hbc
      exact decide_eq_true ((of_decide_eq_true hab).trans (of_decide_eq_true hbc))
    · intro a b
      rcases le_total a.1 b.1 with hle | hle
      · simp [startLe, hle]
      · simp [startLe, hle]
  have hproper : ∀ r ∈ (coerced l).mergeSort startLe, 0 ≤ r.1 ∧ r.1 < r.2 := fun r hr =>
    h.coerced_proper r (hperm.mem_iff.1 hr)
  have hunion : union (((coerced l).mergeSort startLe).map slack) =
      union ((coerced l).map slack) := by
    ext t
    simp only [mem_union_slack, hperm.mem_iff]
  rw [← hunion, mergeRanges]
  cases hcase : (coerced l).mergeSort startLe with
  | nil => exact ⟨⟨fun r hr => absurd hr List.not_mem_nil, List.Pairwise.nil⟩, rfl⟩
  | cons first rest =>
    rw [hcase] at hsorted hproper
    obtain ⟨hfirst, hrest⟩ := List.pairwise_cons.1 hsorted
    obtain ⟨hfirstProper, hrestProper⟩ := List.forall_mem_cons.1 hproper
    have hslack : ∀ r : Range, 0 ≤ r.1 ∧ r.1 < r.2 → (slack r).1 ≤ (slack r).2 := by
      intro r hr
      show r.1 ≤ r.2 + rangeMergeEpsilonSeconds
      linarith [epsilon_pos, hr.2]
    have hle : ∀ q ∈ rest.map slack, q.1 ≤ q.2 := by
      intro q hq
      obtain ⟨r, hr, rfl⟩ := List.mem_map.1 hq
      exact hslack r (hrestProper r hr)
    have hstart : ∀ q ∈ rest.map slack, (slack first).1 ≤ q.1 := by
      intro q hq
      obtain ⟨r, hr, rfl⟩ := List.mem_map.1 hq
      exact hfirst r hr
    have hslackSorted : (rest.map slack).Pairwise fun p q => p.1 ≤ q.1 :=
      List.pairwise_map.2 hrest
    have hapart := apart_sweep (hslack first hfirstProper) hle hstart hslackSorted
    rw [← map_slack_mergeFrom] at hapart
    refine ⟨⟨mergeFrom_proper hfirstProper hrestProper, List.pairwise_map.1 hapart.apart⟩, ?_⟩
    rw [map_slack_mergeFrom, union_sweep (hslack first hfirstProper) hle hstart hslackSorted,
      List.map_cons]

/-- Canonical lists with the same lengthened ranges covered are equal. -/
theorem Canonical.eq_of_union_slack (h : Canonical l) (h' : Canonical l')
    (hunion : union (l.map slack) = union (l'.map slack)) : l = l' :=
  List.map_injective_iff.2 slack_injective
    (h.apart_slack.eq_of_union_eq h'.apart_slack hunion)

/-- Merging depends only on the ranges of the entries, not on their order. -/
theorem mergeRanges_congr (h : Timely l) (h' : Timely l')
    (hcoerced : ∀ r, r ∈ coerced l' ↔ r ∈ coerced l) : mergeRanges l' = mergeRanges l := by
  obtain ⟨hcanonical, hunion⟩ := mergeRanges_spec h
  obtain ⟨hcanonical', hunion'⟩ := mergeRanges_spec h'
  refine hcanonical'.eq_of_union_slack hcanonical ?_
  rw [hunion, hunion']
  ext t
  simp only [mem_union_slack, hcoerced]

theorem Canonical.timely (h : Canonical l) : Timely l := fun r hr _ =>
  (h.proper r hr).1.trans_lt (h.proper r hr).2

theorem coerced_of_proper (h : ∀ r ∈ l, 0 ≤ r.1 ∧ r.1 < r.2) : coerced l = l := by
  induction l with
  | nil => rfl
  | cons r l ih =>
    obtain ⟨hr, hl⟩ := List.forall_mem_cons.1 h
    rw [coerced, List.filterMap_cons, coerceRange_eq hr.2, max_eq_right hr.1]
    exact congrArg (r :: ·) (ih hl)

/-- Merging what was merged. -/
theorem mergeRanges_of_canonical (h : Canonical l) : mergeRanges l = l := by
  obtain ⟨hcanonical, hunion⟩ := mergeRanges_spec h.timely
  refine hcanonical.eq_of_union_slack h ?_
  rw [hunion, coerced_of_proper h.proper]

/-- Each entry lies in one merged range. -/
theorem exists_merged (h : Timely l) {e : Range} (he : e ∈ l) (hlt : e.1 < e.2) :
    ∃ r ∈ mergeRanges l, r.1 ≤ max 0 e.1 ∧ e.2 ≤ r.2 := by
  obtain ⟨hcanonical, hunion⟩ := mergeRanges_spec h
  have hmem : (max 0 e.1, e.2) ∈ coerced l := mem_coerced.2 ⟨e, he, hlt, rfl⟩
  have hlast := (h.coerced_proper _ hmem).2
  obtain ⟨q, hq, hfirst, hend⟩ := hcanonical.apart_slack.exists_superset
    (show max 0 e.1 ≤ e.2 + rangeMergeEpsilonSeconds by linarith [epsilon_pos]) (by
      rw [hunion]
      exact fun t ht => mem_union_slack.2 ⟨_, hmem, ht⟩)
  obtain ⟨r, hr, rfl⟩ := List.mem_map.1 hq
  exact ⟨r, hr, hfirst, le_of_add_le_add_right hend⟩

/-- The entries around a point of a merged range: one begins before the point and ends
at most 0.05 seconds before it, one ends after it and begins at most that much later. -/
theorem exists_around (h : Timely l) (ht : Covered (mergeRanges l) t) :
    (∃ r ∈ coerced l, r.1 ≤ t ∧ t ≤ r.2 + rangeMergeEpsilonSeconds)
      ∧ ∃ r ∈ coerced l, r.1 ≤ t + rangeMergeEpsilonSeconds ∧ t ≤ r.2 := by
  obtain ⟨-, hunion⟩ := mergeRanges_spec h
  obtain ⟨q, hq, hfirst, hlast⟩ := ht
  have hpos := epsilon_pos
  constructor
  · have hin : t ∈ union ((mergeRanges l).map slack) :=
      mem_union_slack.2 ⟨q, hq, hfirst, by linarith⟩
    rw [hunion] at hin
    exact mem_union_slack.1 hin
  · have hin : t + rangeMergeEpsilonSeconds ∈ union ((mergeRanges l).map slack) :=
      mem_union_slack.2 ⟨q, hq, by linarith, by linarith⟩
    rw [hunion] at hin
    obtain ⟨r, hr, hr₁, hr₂⟩ := mem_union_slack.1 hin
    exact ⟨r, hr, hr₁, by linarith⟩

theorem covered_of_input (h : Timely l) (hpos : 0 ≤ t) (ht : Input l t) :
    Covered (mergeRanges l) t := by
  obtain ⟨e, he, hlt, hfirst, hlast⟩ := ht
  obtain ⟨r, hr, hr₁, hr₂⟩ := exists_merged h he hlt
  exact ⟨r, hr, hr₁.trans (max_le hpos hfirst), hlast.trans hr₂⟩

/-- Nothing is far from the entries, on either side. -/
theorem input_near (h : Timely l) (ht : Covered (mergeRanges l) t) :
    (∃ p, Input l p ∧ p ≤ t ∧ t - p ≤ rangeMergeEpsilonSeconds)
      ∧ ∃ p, Input l p ∧ t ≤ p ∧ p - t ≤ rangeMergeEpsilonSeconds := by
  have hpos := epsilon_pos
  obtain ⟨⟨r, hr, hr₁, hr₂⟩, ⟨q, hq, hq₁, hq₂⟩⟩ := exists_around h ht
  have hrr := (h.coerced_proper r hr).2
  have hqq := (h.coerced_proper q hq).2
  constructor
  · obtain ⟨e, he, hlt, rfl⟩ := mem_coerced.1 hr
    have hfirst : e.1 ≤ max 0 e.1 := le_max_right _ _
    refine ⟨min t e.2, ⟨e, he, hlt, le_min (hfirst.trans hr₁) hlt.le, min_le_right _ _⟩,
      min_le_left _ _, ?_⟩
    rcases min_cases t e.2 with ⟨heq, -⟩ | ⟨heq, -⟩
    · rw [heq]
      linarith
    · rw [heq]
      linarith
  · obtain ⟨e, he, hlt, rfl⟩ := mem_coerced.1 hq
    have hfirst : e.1 ≤ max 0 e.1 := le_max_right _ _
    refine ⟨max t (max 0 e.1), ⟨e, he, hlt, hfirst.trans (le_max_right _ _), max_le hq₂ hqq.le⟩,
      le_max_left _ _, ?_⟩
    rcases max_cases t (max 0 e.1) with ⟨heq, -⟩ | ⟨heq, -⟩
    · rw [heq]
      linarith
    · rw [heq]
      linarith

end Merging

/-! ### Taking away -/

section Cutting

variable {a b rest : List Range} {r : Range} {stop cursor t : ℚ}

/-- What the inner loop puts out: pieces between the cursor and the end, in front of or
behind each range that is taken away. -/
structure Piece (stop cursor : ℚ) (subtrahend : List Range) (p : Range) : Prop where
  first : cursor ≤ p.1
  lt : p.1 < p.2
  last : p.2 ≤ stop
  apart : ∀ q ∈ subtrahend, p.2 ≤ q.1 ∨ q.2 ≤ p.1

theorem mem_lastPiece {p : Range} (hp : p ∈ lastPiece stop cursor) :
    cursor < stop ∧ p = (cursor, stop) := by
  rw [lastPiece] at hp
  split_ifs at hp with hlt
  · exact ⟨hlt, List.mem_singleton.1 hp⟩
  · cases hp

theorem piece_of_mem_cutFrom (hsorted : rest.Pairwise fun p q => p.1 ≤ q.1) (hlt : cursor < stop)
    {p : Range} (hp : p ∈ cutFrom stop cursor rest) : Piece stop cursor rest p := by
  induction rest generalizing cursor with
  | nil =>
    obtain ⟨-, rfl⟩ := mem_lastPiece hp
    exact ⟨le_rfl, hlt, le_rfl, fun q hq => by cases hq⟩
  | cons sub rest ih =>
    obtain ⟨hsub, hrest⟩ := List.pairwise_cons.1 hsorted
    rw [cutFrom] at hp
    by_cases hbehind : sub.2 ≤ cursor
    · rw [if_pos hbehind] at hp
      obtain ⟨hfirst, hpp, hlast, hapart⟩ := ih hrest hlt hp
      exact ⟨hfirst, hpp, hlast, List.forall_mem_cons.2 ⟨Or.inr (hbehind.trans hfirst), hapart⟩⟩
    rw [if_neg hbehind] at hp
    by_cases hbefore : stop ≤ sub.1
    · rw [if_pos hbefore] at hp
      obtain ⟨-, rfl⟩ := mem_lastPiece hp
      refine ⟨le_rfl, hlt, le_rfl, List.forall_mem_cons.2 ⟨Or.inl hbefore, fun q hq => ?_⟩⟩
      exact Or.inl (hbefore.trans (hsub q hq))
    rw [if_neg hbefore] at hp
    -- what follows lies behind the range
    have hlater : p ∈ (if stop ≤ max cursor sub.2 then lastPiece stop (max cursor sub.2)
        else cutFrom stop (max cursor sub.2) rest) → Piece stop cursor (sub :: rest) p := by
      intro hp
      split_ifs at hp with hdone
      · obtain ⟨hnext, -⟩ := mem_lastPiece hp
        exact absurd hdone (not_le.2 hnext)
      · obtain ⟨hfirst, hpp, hlast, hapart⟩ := ih hrest (not_le.1 hdone) hp
        exact ⟨(le_max_left _ _).trans hfirst, hpp, hlast,
          List.forall_mem_cons.2 ⟨Or.inr ((le_max_right _ _).trans hfirst), hapart⟩⟩
    dsimp only at hp
    split_ifs at hp with hgap hdone hdone
    · rcases List.mem_cons.1 hp with rfl | hp
      · refine ⟨le_rfl, lt_min hlt hgap, min_le_left _ _,
          List.forall_mem_cons.2 ⟨?_, fun q hq => ?_⟩⟩
        · exact Or.inl (min_le_right _ _)
        · exact Or.inl ((min_le_right _ _).trans (hsub q hq))
      · exact hlater (by rwa [if_pos hdone])
    · rcases List.mem_cons.1 hp with rfl | hp
      · refine ⟨le_rfl, lt_min hlt hgap, min_le_left _ _,
          List.forall_mem_cons.2 ⟨?_, fun q hq => ?_⟩⟩
        · exact Or.inl (min_le_right _ _)
        · exact Or.inl ((min_le_right _ _).trans (hsub q hq))
      · exact hlater (by rwa [if_neg hdone])
    · exact hlater (by rwa [if_pos hdone])
    · exact hlater (by rwa [if_neg hdone])

/-- The pieces that are left of the merged minuend. -/
def pieces (a b : List Range) : List Range :=
  (mergeRanges a).flatMap fun range => cutFrom range.2 range.1 (mergeRanges b)

theorem Canonical.ascending (h : Canonical a) : a.Pairwise fun p q => p.1 ≤ q.1 := by
  refine List.Pairwise.imp_of_mem ?_ h.apart
  intro p q hp _ hpq
  have hlt := (h.proper p hp).2
  linarith [epsilon_pos]

/-- A piece lies in a range of the minuend. -/
theorem exists_minuend (hA : Timely a) (hB : Timely b) {p : Range} (hp : p ∈ pieces a b) :
    ∃ r ∈ mergeRanges a, Piece r.2 r.1 (mergeRanges b) p := by
  obtain ⟨r, hr, hcut⟩ := List.mem_flatMap.1 hp
  have hlt := ((mergeRanges_spec hA).1.proper r hr).2
  exact ⟨r, hr, piece_of_mem_cutFrom (mergeRanges_spec hB).1.ascending hlt hcut⟩

theorem pieces_proper (hA : Timely a) (hB : Timely b) :
    ∀ p ∈ pieces a b, 0 ≤ p.1 ∧ p.1 < p.2 := by
  intro p hp
  obtain ⟨r, hr, hpiece⟩ := exists_minuend hA hB hp
  exact ⟨((mergeRanges_spec hA).1.proper r hr).1.trans hpiece.first, hpiece.lt⟩

/-- The two early returns do not matter. -/
theorem subtractRanges_eq (hA : Timely a) : subtractRanges a b = mergeRanges (pieces a b) := by
  rw [subtractRanges, pieces]
  split_ifs with hnone hall
  · rw [hnone, List.flatMap_nil, mergeRanges_nil]
  · have hcanonical := (mergeRanges_spec hA).1
    have hpieces : ((mergeRanges a).flatMap fun range => cutFrom range.2 range.1 (mergeRanges b))
        = mergeRanges a := by
      rw [hall]
      have hself : ∀ r ∈ mergeRanges a, cutFrom r.2 r.1 [] = [r] := fun r hr =>
        if_pos (hcanonical.proper r hr).2
      rw [List.flatMap_congr hself, List.flatMap_singleton']
    rw [hpieces, mergeRanges_of_canonical hcanonical]
  · rfl

/-- The pieces that are left, as they are merged. -/
theorem subtractRanges_spec (hA : Timely a) (hB : Timely b) :
    Canonical (subtractRanges a b)
      ∧ union ((subtractRanges a b).map slack) = union ((pieces a b).map slack) := by
  have hproper := pieces_proper hA hB
  have htimely : Timely (pieces a b) := fun p hp _ => (hproper p hp).1.trans_lt (hproper p hp).2
  have hspec := mergeRanges_spec htimely
  rwa [coerced_of_proper hproper, ← subtractRanges_eq hA] at hspec

/-- What is left was there before. -/
theorem covered_of_subtractRanges (hA : Timely a) (hB : Timely b)
    (ht : Covered (subtractRanges a b) t) : Covered (mergeRanges a) t := by
  obtain ⟨hcanonical, hunion⟩ := subtractRanges_spec hA hB
  have hsub : union ((subtractRanges a b).map slack) ⊆ union ((mergeRanges a).map slack) := by
    rw [hunion]
    intro x hx
    obtain ⟨p, hp, hfirst, hlast⟩ := mem_union_slack.1 hx
    obtain ⟨r, hr, hpiece⟩ := exists_minuend hA hB hp
    exact mem_union_slack.2 ⟨r, hr, hpiece.first.trans hfirst, by linarith [hpiece.last]⟩
  obtain ⟨s, hs, hs₁, hs₂⟩ := ht
  -- the lengthened range lies in the union, and so in one range
  obtain ⟨q, hq, hfirst, hlast⟩ := hcanonical.apart_slack.exists_mem_superset
    (mergeRanges_spec hA).1.apart_slack hsub (List.mem_map_of_mem hs)
  obtain ⟨r, hr, rfl⟩ := List.mem_map.1 hq
  have hrs : r.1 ≤ s.1 := hfirst
  have hsr : s.2 ≤ r.2 :=
    le_of_add_le_add_right (show s.2 + rangeMergeEpsilonSeconds ≤ _ from hlast)
  exact ⟨r, hr, hrs.trans hs₁, hs₂.trans hsr⟩

/-- What was taken away is not there any more, unless it was shorter than what merging
closes. -/
theorem not_covered_subtractRanges (hA : Timely a) (hB : Timely b) {q : Range}
    (hq : q ∈ mergeRanges b) (hlong : rangeMergeEpsilonSeconds < q.2 - q.1) (hfirst : q.1 < t)
    (hlast : t < q.2) : ¬ Covered (subtractRanges a b) t := by
  rintro ⟨s, hs, hs₁, hs₂⟩
  obtain ⟨-, hunion⟩ := subtractRanges_spec hA hB
  have hpos := epsilon_pos
  -- a point behind `t` that no piece in front of the range reaches, even when it is lengthened
  obtain ⟨x, hbehind, hbefore⟩ : ∃ x, max t (q.1 + rangeMergeEpsilonSeconds) < x
      ∧ x < min q.2 (s.2 + rangeMergeEpsilonSeconds) :=
    exists_between (lt_min (max_lt hlast (by linarith)) (max_lt (by linarith) (by linarith)))
  obtain ⟨htx, hqx⟩ := max_lt_iff.1 hbehind
  obtain ⟨hxq, hxs⟩ := lt_min_iff.1 hbefore
  have hin : x ∈ union ((subtractRanges a b).map slack) :=
    mem_union_slack.2 ⟨s, hs, by linarith, hxs.le⟩
  rw [hunion] at hin
  obtain ⟨p, hp, hp₁, hp₂⟩ := mem_union_slack.1 hin
  obtain ⟨r, -, hpiece⟩ := exists_minuend hA hB hp
  rcases hpiece.apart q hq with hle | hle
  · linarith
  · linarith

end Cutting

/-! ### Clamping -/

section Clamping

variable {l : List Range} {duration : ℚ} {e : Range}

theorem clampEntry_eq_some {r : Range} (h : clampEntry duration e = some r) :
    0 ≤ r.1 ∧ r.1 < r.2 := by
  obtain ⟨range, -, hclamp⟩ := Option.bind_eq_some_iff.1 h
  dsimp only at hclamp
  split_ifs at hclamp with hlong
  cases hclamp
  exact ⟨le_max_left _ _, by linarith [epsilon_pos]⟩

/-- An entry that is long enough is kept, as much of it as lies on the timeline. -/
theorem clampEntry_long (hduration : 0 < duration)
    (hlong : rangeMergeEpsilonSeconds < min duration e.2 - max 0 (min duration e.1)) :
    clampEntry duration e = some (max 0 (min duration e.1), min duration e.2) := by
  have hpos := epsilon_pos
  have hlt : e.1 < e.2 := by
    by_contra hle
    have hmin : min duration e.2 ≤ min duration e.1 := min_le_min_left _ (not_lt.1 hle)
    have hmax : min duration e.1 ≤ max 0 (min duration e.1) := le_max_right _ _
    linarith
  have hstart : max 0 (min duration (max 0 e.1)) = max 0 (min duration e.1) := by
    rcases le_total 0 e.1 with hnonneg | hneg
    · rw [max_eq_right hnonneg]
    · rw [max_eq_left hneg, min_eq_right hduration.le, max_self,
        max_eq_left ((min_le_right _ _).trans hneg)]
  rw [clampEntry, coerceRange_eq hlt, Option.bind_some]
  have hend : max (max 0 (min duration e.1)) (min duration e.2) = min duration e.2 :=
    max_eq_right (by linarith)
  dsimp only
  rw [hstart, hend, if_pos (by linarith)]

theorem timely_clamped : Timely (l.filterMap (clampEntry duration)) := by
  intro r hr _
  obtain ⟨e, -, hclamp⟩ := List.mem_filterMap.1 hr
  obtain ⟨hfirst, hlt⟩ := clampEntry_eq_some hclamp
  exact hfirst.trans_lt hlt

theorem canonical_clampRangesToDuration : Canonical (clampRangesToDuration l duration) := by
  rw [clampRangesToDuration]
  split_ifs
  · exact ⟨fun r hr => absurd hr List.not_mem_nil, List.Pairwise.nil⟩
  · exact (mergeRanges_spec timely_clamped).1

/-- What is played but not cached: nothing inside a cached entry longer than 0.05 seconds. -/
theorem not_covered_playedNotCached {played buffered : List Range} (he : e ∈ buffered)
    (hlong : rangeMergeEpsilonSeconds < min duration e.2 - max 0 (min duration e.1)) {t : ℚ}
    (hfirst : max 0 (min duration e.1) < t) (hlast : t < min duration e.2) :
    ¬ Covered (computePlayedNotCachedRanges played buffered duration) t := by
  have hpos := epsilon_pos
  have hduration : 0 < duration := by
    have hstart : 0 ≤ max 0 (min duration e.1) := le_max_left _ _
    have hend : min duration e.2 ≤ duration := min_le_left _ _
    linarith
  have hmem : (max 0 (min duration e.1), min duration e.2)
      ∈ buffered.filterMap (clampEntry duration) :=
    List.mem_filterMap.2 ⟨e, he, clampEntry_long hduration hlong⟩
  obtain ⟨q, hq, hq₁, hq₂⟩ := exists_merged timely_clamped hmem (by linarith)
  rw [max_eq_right (le_max_left _ _)] at hq₁
  dsimp only at hq₁ hq₂
  have hcanonical := @canonical_clampRangesToDuration buffered duration
  have hqB : q ∈ mergeRanges (clampRangesToDuration buffered duration) := by
    rw [mergeRanges_of_canonical hcanonical, clampRangesToDuration, if_neg (not_le.2 hduration)]
    exact hq
  exact not_covered_subtractRanges canonical_clampRangesToDuration.timely hcanonical.timely hqB
    (by linarith) (by linarith) (by linarith)

end Clamping

/-- **The range algebra.**  For ranges that end behind the beginning of the timeline,
merging returns a canonical list close to the entries, whatever their order, and keeps it
when it is merged again; taking away leaves nothing new, and nothing of a range that is
longer than what merging closes. -/
theorem timeline_range_algebra :
    (∀ l : List Range, Timely l →
      Canonical (mergeRanges l)
        ∧ (∀ t, 0 ≤ t → Input l t → Covered (mergeRanges l) t)
        ∧ (∀ t, Covered (mergeRanges l) t →
          (∃ p, Input l p ∧ p ≤ t ∧ t - p ≤ rangeMergeEpsilonSeconds)
            ∧ ∃ p, Input l p ∧ t ≤ p ∧ p - t ≤ rangeMergeEpsilonSeconds)
        ∧ (∀ l', l'.Perm l → mergeRanges l' = mergeRanges l)
        ∧ mergeRanges (mergeRanges l) = mergeRanges l)
    ∧ (∀ a b : List Range, Timely a → Timely b →
      (∀ t, Covered (subtractRanges a b) t → Covered (mergeRanges a) t)
        ∧ ∀ q ∈ mergeRanges b, rangeMergeEpsilonSeconds < q.2 - q.1 →
          ∀ t, q.1 < t → t < q.2 → ¬ Covered (subtractRanges a b) t)
    ∧ ∀ (played buffered : List Range) (duration : ℚ), ∀ e ∈ buffered,
      rangeMergeEpsilonSeconds < min duration e.2 - max 0 (min duration e.1) →
        ∀ t, max 0 (min duration e.1) < t → t < min duration e.2 →
          ¬ Covered (computePlayedNotCachedRanges played buffered duration) t := by
  refine ⟨fun l h => ?_, fun a b hA hB => ?_, fun played buffered duration e he hlong t => ?_⟩
  · have hcanonical := (mergeRanges_spec h).1
    refine ⟨hcanonical, fun t => covered_of_input h, fun t => input_near h, fun l' hperm => ?_,
      mergeRanges_of_canonical hcanonical⟩
    refine mergeRanges_congr h (fun e he => h e (hperm.mem_iff.1 he)) fun r => ?_
    simp only [mem_coerced, hperm.mem_iff]
  · exact ⟨fun t => covered_of_subtractRanges hA hB, fun q hq hlong t =>
      not_covered_subtractRanges hA hB hq hlong⟩
  · exact not_covered_playedNotCached he hlong

/-- Entries out of order, one of which begins before the timeline; what is taken away from the
merged ones, and what is cached of it. -/
theorem timeline_range_algebra_unordered :
    Canonical (mergeRanges [(3, 5), (-1, 2), (4, 1)])
      ∧ mergeRanges [(-1, 2), (4, 1), (3, 5)] = mergeRanges [(3, 5), (-1, 2), (4, 1)]
      ∧ ¬ Covered (subtractRanges [(3, 5), (-1, 2), (4, 1)] [(1, 4)]) (7 / 2)
      ∧ ¬ Covered (computePlayedNotCachedRanges [(3, 5), (-1, 2)] [(1, 4)] 100) (3 / 2) := by
  have htimely : Timely [(3, 5), (-1, 2), (4, 1)] := by
    intro e he hlt
    simp only [List.mem_cons, List.not_mem_nil, or_false] at he
    rcases he with rfl | rfl | rfl
    · norm_num
    · norm_num
    · norm_num at hlt
  have hcut : mergeRanges [(1, 4)] = [(1, 4)] := by
    rw [mergeRanges_singleton (by norm_num)]
    norm_num
  obtain ⟨hcanonical, -, -, hperm, -⟩ := timeline_range_algebra.1 _ htimely
  refine ⟨hcanonical, hperm _ ?_, ?_, ?_⟩
  · exact (@List.perm_append_comm _ [(3, 5)] [(-1, 2), (4, 1)]).symm
  · refine (timeline_range_algebra.2.1 _ [(1, 4)] htimely (by norm_num [Timely])).2 (1,
      4) ?_ ?_ _ ?_ ?_
    · rw [hcut]
      exact List.mem_singleton_self _
    · norm_num [rangeMergeEpsilonSeconds]
    · norm_num
    · norm_num
  · refine timeline_range_algebra.2.2 _ [(1, 4)] 100 (1, 4) (List.mem_singleton_self _) ?_ _ ?_ ?_
    · norm_num [rangeMergeEpsilonSeconds]
    · norm_num
    · norm_num

/-- A range that ends before the timeline begins is clamped at its start only, and what is
taken away or cached for 0.03 seconds is joined over. -/
theorem early_and_short :
    ¬ Canonical (mergeRanges [(-5, -3)])
      ∧ (∃ q ∈ mergeRanges [(5, 503 / 100)], q.1 < 501 / 100 ∧ 501 / 100 < q.2
        ∧ Covered (subtractRanges [(0, 10)] [(5, 503 / 100)]) (501 / 100))
      ∧ Covered (computePlayedNotCachedRanges [(0, 10)] [(5, 503 / 100)] 100) (501 / 100) := by
  have hearly : mergeRanges [(-5, -3)] = [(0, -3)] := by
    rw [mergeRanges_singleton (by norm_num)]
    norm_num
  have hminuend : mergeRanges [(0, 10)] = [(0, 10)] := by
    rw [mergeRanges_singleton (by norm_num), max_self]
  have hshort : mergeRanges [(5, 503 / 100)] = [(5, 503 / 100)] := by
    rw [mergeRanges_singleton (by norm_num)]
    norm_num
  have hpieces : pieces [(0, 10)] [(5, 503 / 100)] = [(0, 5), (503 / 100, 10)] := by
    rw [pieces, hminuend, hshort]
    norm_num [cutFrom, lastPiece]
  have hproper : ∀ r ∈ [((0 : ℚ), (5 : ℚ)), (503 / 100, 10)], 0 ≤ r.1 ∧ r.1 < r.2 := by
    norm_num
  have hleft : subtractRanges [(0, 10)] [(5, 503 / 100)] = [(0, 10)] := by
    rw [subtractRanges_eq (by norm_num [Timely]), hpieces, mergeRanges, coerced_of_proper hproper,
      List.mergeSort_of_pairwise (by norm_num [startLe])]
    norm_num [mergeFrom, rangeMergeEpsilonSeconds]
  -- the clamped cached range is too short to be kept
  have hplayed : clampRangesToDuration [(0, 10)] 100 = [(0, 10)] := by
    have hkept : clampEntry 100 (0, 10) = some (0, 10) := by
      norm_num [clampEntry, coerceRange, rangeMergeEpsilonSeconds]
    rw [clampRangesToDuration, if_neg (by norm_num), List.filterMap_cons, hkept, List.filterMap_nil]
    exact hminuend
  have hcached : clampRangesToDuration [(5, 503 / 100)] 100 = [] := by
    rw [clampRangesToDuration, if_neg (by norm_num)]
    norm_num [clampEntry, coerceRange, rangeMergeEpsilonSeconds, mergeRanges_nil]
  have hnothing : computePlayedNotCachedRanges [(0, 10)] [(5, 503 / 100)] 100 = [(0, 10)] := by
    rw [computePlayedNotCachedRanges, hplayed, hcached, subtractRanges, hminuend, mergeRanges_nil]
    rfl
  refine ⟨fun h => ?_, ⟨_, hshort ▸ List.mem_cons_self, by norm_num, by norm_num, ?_⟩, ?_⟩
  · rw [hearly] at h
    have hlt := (h.proper _ List.mem_cons_self).2
    norm_num at hlt
  · rw [hleft]
    exact ⟨_, List.mem_cons_self, by norm_num, by norm_num⟩
  · rw [hnothing]
    exact ⟨_, List.mem_cons_self, by norm_num, by norm_num⟩

end TimelineRanges
