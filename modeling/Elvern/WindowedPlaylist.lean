/-
The windowed playlist of an epoch (`route2_native_hls_window.py`), for segments
of any duration.

The playlist of a window lists the segments that overlap it, or the last
published one where there is none.  The code finds them by two divisions, moves
each result by one where the window touches a boundary up to a millionth of a
second, and clamps them to the published segments.

* `sliceManifestSegmentsForWindow`, `renderRoute2EpochManifestText` -- the functions;
* `shown` -- the segments that a window should list;
* `first_isLeast`, `last_isGreatest` -- the ends, where the window does not slip;
* `slice_iff` -- when the slice has the right ends;
* `windowed_playlist_iff` -- the same for the playlist.
-/
import Elvern.NativeHlsWindow
import Elvern.WatchTime
import Mathlib.Order.Bounds.Basic

open NativeHls Progress

namespace WindowedPlaylist

/-! ### The functions -/

/-- The tolerance of both corrections. -/
def tolerance : ℚ := 1 / 1000000

section Slice

variable (duration : ℚ)

/-- `first_candidate` -/
def firstCandidate (relativeStart : ℚ) : ℤ :=
  let candidate := ⌊relativeStart / duration⌋
  if (candidate + 1) * duration ≤ relativeStart + tolerance then candidate + 1 else candidate

/-- `last_candidate` -/
def lastCandidate (relativeEnd : ℚ) : ℤ :=
  let candidate := ⌊relativeEnd / duration⌋
  if relativeEnd - tolerance ≤ candidate * duration ∧ 0 < candidate then candidate - 1
  else candidate

/-- `slice_manifest_segments_for_window` -/
def sliceManifestSegmentsForWindow (manifestEndSegment : ℕ) (segmentDuration epochStartSeconds
    windowStart windowEnd : ℚ) : Slice :=
  let duration := max (1 / 1000) segmentDuration
  let start := max 0 epochStartSeconds
  if windowEnd ≤ windowStart then
    ⟨manifestEndSegment, manifestEndSegment, manifestEndSegment,
      round3 (start + manifestEndSegment * duration)⟩
  else
    let relativeStart := max 0 (windowStart - start)
    let relativeEnd := max relativeStart (windowEnd - start)
    let first := (max 0 (min (manifestEndSegment : ℤ)
      (firstCandidate duration relativeStart))).toNat
    let last := max first (min (manifestEndSegment : ℤ) (lastCandidate duration relativeEnd)).toNat
    ⟨first, last, first, round3 (start + first * duration)⟩

end Slice

/-- For segments of two seconds this is the slice of a session's window. -/
theorem slice_two (manifestEndSegment : ℕ) (epochStart windowStart windowEnd : ℚ) :
    sliceManifestSegmentsForWindow manifestEndSegment segmentDurationSeconds epochStart windowStart
        windowEnd
      = NativeHls.sliceManifestSegmentsForWindow manifestEndSegment epochStart windowStart
          windowEnd := by
  have hduration : max (1 / 1000) segmentDurationSeconds = segmentDurationSeconds :=
    max_eq_right (by rw [segmentDurationSeconds]; norm_num)
  rw [sliceManifestSegmentsForWindow, hduration]
  rfl

/-- What `#EXTINF` says of a segment, to three places. -/
def segmentSeconds (segmentDuration epochStart duration : ℚ) (index : ℕ) : ℚ :=
  let remaining := if 0 < duration then max 0 (duration - (epochStart + index * segmentDuration))
    else segmentDuration
  round3 (if 0 < duration then min segmentDuration remaining else segmentDuration)

/-- The lines of the segments between two indexes. -/
def segmentLines (segmentDuration epochStart duration : ℚ) (first last : ℕ) : List Line :=
  (List.range' first (last + 1 - first)).flatMap fun index =>
    [.extInf (segmentSeconds segmentDuration epochStart duration index), .segment index]

/-- The arguments of a playlist, but for the window. -/
structure Epoch where
  epochStartSeconds : ℚ
  attachPositionSeconds : ℚ
  manifestEndSegment : ℕ
  durationSeconds : ℚ
  segmentDurationSeconds : ℚ
  manifestComplete : Bool

/-- `render_route2_epoch_manifest_text`; the window is `none` where it is not given. -/
def renderRoute2EpochManifestText (epoch : Epoch) (window : Option (ℚ × ℚ)) : List Line :=
  let segmentDuration := max (1 / 1000) epoch.segmentDurationSeconds
  let epochStart := max 0 epoch.epochStartSeconds
  let duration := max 0 epoch.durationSeconds
  let slice := (window.filter fun w => decide (w.1 < w.2)).map fun w =>
    sliceManifestSegmentsForWindow epoch.manifestEndSegment segmentDuration epochStart w.1 w.2
  let shown := slice.getD ⟨0, epoch.manifestEndSegment, 0, epochStart⟩
  let offset := max 0 (max 0 epoch.attachPositionSeconds - shown.firstSegmentStartSeconds)
  [.extM3u, .version 7, .targetDuration ⌈segmentDuration⌉,
      .mediaSequence shown.mediaSequenceNumber] ++
    (if slice.isSome then [] else [.playlistTypeEvent]) ++
    [.independentSegments, .map "init.mp4", .start (round3 offset)] ++
    segmentLines segmentDuration epochStart duration shown.firstSegmentIndex
      shown.lastSegmentIndex ++
    (if epoch.manifestComplete then [.endList] else [])

/-! ### The candidates -/

section Candidates

variable {duration : ℚ}

theorem int_mul_duration_le (hduration : 1 / 1000 ≤ duration) (i j : ℤ) (h : i ≤ j) :
    (i : ℚ) * duration ≤ j * duration :=
  mul_le_mul_of_nonneg_right (by exact_mod_cast h) (by linarith)

/-- The first candidate is the first segment that ends after the start, by more than
the tolerance. -/
theorem firstCandidate_le_iff (hduration : 1 / 1000 ≤ duration) (relativeStart : ℚ) (i : ℤ) :
    firstCandidate duration relativeStart ≤ i ↔ relativeStart + tolerance < (i + 1) * duration := by
  have hpos : 0 < duration := by linarith
  have hfloor := (le_div_iff₀ hpos).mp (Int.floor_le (relativeStart / duration))
  have hnext := (div_lt_iff₀ hpos).mp (Int.lt_floor_add_one (relativeStart / duration))
  simp only [firstCandidate]
  generalize ⌊relativeStart / duration⌋ = k at hfloor hnext
  have hmono := int_mul_duration_le hduration
  rw [tolerance]
  split_ifs with hnear
  · constructor
    · intro hi
      have hstep := hmono (k + 2) (i + 1) (by omega)
      push_cast at hstep
      linarith
    · intro hi
      by_contra hlt
      have hstep := hmono (i + 1) (k + 1) (by omega)
      push_cast at hstep
      linarith
  · rw [not_le] at hnear
    constructor
    · intro hi
      have hstep := hmono (k + 1) (i + 1) (by omega)
      push_cast at hstep
      linarith
    · intro hi
      by_contra hlt
      have hstep := hmono (i + 1) k (by omega)
      push_cast at hstep
      linarith

/-- The last candidate is the last segment that starts before the end, by more than
the tolerance; it is never negative. -/
theorem le_lastCandidate_iff (hduration : 1 / 1000 ≤ duration) {relativeEnd : ℚ}
    (hend : 0 ≤ relativeEnd) (i : ℤ) :
    i ≤ lastCandidate duration relativeEnd ↔ i ≤ 0 ∨ i * duration < relativeEnd - tolerance := by
  have hpos : 0 < duration := by linarith
  have hfloor := (le_div_iff₀ hpos).mp (Int.floor_le (relativeEnd / duration))
  have hnext := (div_lt_iff₀ hpos).mp (Int.lt_floor_add_one (relativeEnd / duration))
  have hnonneg : 0 ≤ ⌊relativeEnd / duration⌋ := Int.floor_nonneg.mpr (div_nonneg hend hpos.le)
  simp only [lastCandidate]
  generalize ⌊relativeEnd / duration⌋ = k at hfloor hnext hnonneg
  have hmono := int_mul_duration_le hduration
  rw [tolerance]
  split_ifs with hnear
  · constructor
    · intro hi
      have hstep := hmono (i + 1) k (by omega)
      push_cast at hstep
      right
      linarith
    · rintro (hi | hi)
      · omega
      · by_contra hlt
        have hstep := hmono k i (by omega)
        linarith [hnear.1]
  · constructor
    · intro hi
      by_cases hzero : i ≤ 0
      · exact Or.inl hzero
      · have hfar : k * duration < relativeEnd - 1 / 1000000 := by
          by_contra hclose
          exact hnear ⟨not_lt.mp hclose, by omega⟩
        have hstep := hmono i k hi
        right
        linarith
    · rintro (hi | hi)
      · omega
      · by_contra hlt
        have hstep := hmono (k + 1) i (by omega)
        push_cast at hstep
        linarith

end Candidates

/-! ### The slice -/

section Shown

variable (duration epochStart windowStart windowEnd : ℚ) (manifestEnd : ℕ)

/-- The published segments that overlap the window. -/
def included : Set ℕ :=
  {i | i ≤ manifestEnd ∧ windowStart < epochStart + (i + 1) * duration
    ∧ epochStart + i * duration < windowEnd}

/-- They are listed, or the last published segment where there are none. -/
def shown : Set ℕ :=
  {i | i ∈ included duration epochStart windowStart windowEnd manifestEnd
    ∨ included duration epochStart windowStart windowEnd manifestEnd = ∅ ∧ i = manifestEnd}

/-- The windows whose slice has other ends: those that end before the epoch starts,
those that start just before the end of a segment, and those that end just after the
start of one that is not the first listed. -/
def Slips : Prop :=
  (windowEnd ≤ epochStart ∧ 0 < manifestEnd)
    ∨ (∃ j : ℕ, 1 ≤ j ∧ j ≤ manifestEnd ∧ windowStart - epochStart < j * duration
      ∧ j * duration ≤ windowStart - epochStart + tolerance)
    ∨ ∃ j : ℕ, 1 ≤ j ∧ j ≤ manifestEnd ∧ windowStart - epochStart < j * duration
      ∧ j * duration < windowEnd - epochStart ∧ windowEnd - epochStart ≤ j * duration + tolerance

end Shown

section SliceEnds

variable {duration epochStart windowStart windowEnd : ℚ} {manifestEnd : ℕ}

theorem mem_included {i : ℕ} :
    i ∈ included duration epochStart windowStart windowEnd manifestEnd
      ↔ i ≤ manifestEnd ∧ windowStart - epochStart < (i + 1) * duration
        ∧ i * duration < windowEnd - epochStart := by
  rw [included, Set.mem_ofPred_eq, sub_lt_iff_lt_add', lt_sub_iff_add_lt']

theorem shown_of_empty (h : included duration epochStart windowStart windowEnd manifestEnd = ∅) :
    shown duration epochStart windowStart windowEnd manifestEnd = {manifestEnd} := by
  ext i
  simp [shown, h]

theorem shown_of_nonempty
    (h : (included duration epochStart windowStart windowEnd manifestEnd).Nonempty) :
    shown duration epochStart windowStart windowEnd manifestEnd
      = included duration epochStart windowStart windowEnd manifestEnd := by
  ext i
  simp [shown, h.ne_empty]

theorem first_le_iff (hduration : 1 / 1000 ≤ duration) (hepoch : 0 ≤ epochStart)
    (hwindow : windowStart < windowEnd) (i : ℕ) :
    (sliceManifestSegmentsForWindow manifestEnd duration epochStart windowStart
        windowEnd).firstSegmentIndex ≤ i
      ↔ manifestEnd ≤ i ∨ windowStart - epochStart + tolerance < (i + 1) * duration := by
  have hcandidate := firstCandidate_le_iff hduration (max 0 (windowStart - epochStart)) i
  have hstep : 1 / 1000 ≤ ((i : ℚ) + 1) * duration := by
    have hnonneg : 0 ≤ (i : ℚ) * duration := mul_nonneg (Nat.cast_nonneg i) (by linarith)
    linarith
  have hrelative : max 0 (windowStart - epochStart) + tolerance < ((i : ℤ) + 1) * duration
      ↔ windowStart - epochStart + tolerance < (i + 1) * duration := by
    rw [← max_add_add_right, max_lt_iff, Int.cast_natCast]
    refine and_iff_right ?_
    rw [tolerance]
    linarith
  rw [← hrelative, ← hcandidate, sliceManifestSegmentsForWindow, max_eq_right hduration,
    max_eq_right hepoch, if_neg (not_le.mpr hwindow)]
  dsimp only
  omega

theorem le_last_iff (hduration : 1 / 1000 ≤ duration) (hepoch : 0 ≤ epochStart)
    (hwindow : windowStart < windowEnd) (i : ℕ) :
    i ≤ (sliceManifestSegmentsForWindow manifestEnd duration epochStart windowStart
        windowEnd).lastSegmentIndex
      ↔ i ≤ (sliceManifestSegmentsForWindow manifestEnd duration epochStart windowStart
          windowEnd).firstSegmentIndex
        ∨ i ≤ manifestEnd ∧ i * duration < windowEnd - epochStart - tolerance := by
  have hends : max (max 0 (windowStart - epochStart)) (windowEnd - epochStart)
      = max 0 (windowEnd - epochStart) := by
    rw [max_assoc, max_eq_right (by linarith : windowStart - epochStart ≤ windowEnd - epochStart)]
  have hcandidate := le_lastCandidate_iff hduration (le_max_left 0 (windowEnd - epochStart)) i
  have hnonneg : 0 ≤ (i : ℚ) * duration := mul_nonneg (Nat.cast_nonneg i) (by linarith)
  have hrelative : ((i : ℤ) : ℚ) * duration < max 0 (windowEnd - epochStart) - tolerance
      ↔ i * duration < windowEnd - epochStart - tolerance := by
    rw [Int.cast_natCast, lt_sub_iff_add_lt, lt_max_iff, ← lt_sub_iff_add_lt (c := windowEnd - _)]
    refine or_iff_right ?_
    rw [tolerance, not_lt]
    linarith
  rw [hrelative] at hcandidate
  rw [sliceManifestSegmentsForWindow, max_eq_right hduration, max_eq_right hepoch,
    if_neg (not_le.mpr hwindow)]
  dsimp only
  rw [hends]
  -- a segment after the first is not segment 0
  generalize ((i : ℚ) * duration < windowEnd - epochStart - tolerance) = near at hcandidate ⊢
  generalize firstCandidate duration (max 0 (windowStart - epochStart)) = first
  generalize lastCandidate duration (max 0 (windowEnd - epochStart)) = last at hcandidate ⊢
  by_cases hnear : near
  · simp only [hnear, or_true, and_true, iff_true] at hcandidate ⊢
    omega
  · simp only [hnear, or_false, and_false] at hcandidate ⊢
    omega

theorem mul_duration_le (hduration : 1 / 1000 ≤ duration) {i j : ℕ} (h : i ≤ j) :
    (i : ℚ) * duration ≤ j * duration :=
  mul_le_mul_of_nonneg_right (by exact_mod_cast h) (by linarith)

/-- Where the window does not slip, the tolerance of the first test does not count. -/
theorem start_exact (h : ¬ Slips duration epochStart windowStart windowEnd manifestEnd) {j : ℕ}
    (hj : 1 ≤ j) (hjM : j ≤ manifestEnd) (hlt : windowStart - epochStart < j * duration) :
    windowStart - epochStart + tolerance < j * duration :=
  not_le.mp fun hle => h (Or.inr (Or.inl ⟨j, hj, hjM, hlt, hle⟩))

/-- Nor does that of the last test. -/
theorem end_exact (h : ¬ Slips duration epochStart windowStart windowEnd manifestEnd) {j : ℕ}
    (hj : 1 ≤ j) (hjM : j ≤ manifestEnd) (hlt : windowStart - epochStart < j * duration)
    (hend : j * duration < windowEnd - epochStart) :
    j * duration < windowEnd - epochStart - tolerance := by
  by_contra hle
  exact h (Or.inr (Or.inr ⟨j, hj, hjM, hlt, hend, by linarith [not_lt.mp hle]⟩))

section Ends

variable {first last : ℕ}
  (hfirst : ∀ i : ℕ, first ≤ i
    ↔ manifestEnd ≤ i ∨ windowStart - epochStart + tolerance < (i + 1) * duration)
  (hlast : ∀ i : ℕ, i ≤ last
    ↔ i ≤ first ∨ i ≤ manifestEnd ∧ i * duration < windowEnd - epochStart - tolerance)

include hfirst in
/-- A first segment that is not the last published one is in the window. -/
theorem first_mem_included (hwindow : windowStart < windowEnd)
    (h : ¬ Slips duration epochStart windowStart windowEnd manifestEnd)
    (hlt : first < manifestEnd) :
    first ∈ included duration epochStart windowStart windowEnd manifestEnd := by
  have htolerance : (0 : ℚ) < tolerance := by rw [tolerance]; norm_num
  have hends : windowStart - epochStart + tolerance < (first + 1) * duration :=
    ((hfirst first).mp le_rfl).resolve_left (by omega)
  refine mem_included.mpr ⟨hlt.le, by linarith, ?_⟩
  cases first with
  | zero =>
    rw [Nat.cast_zero, zero_mul, sub_pos]
    exact not_le.mp fun hle => h (Or.inl ⟨hle, by omega⟩)
  | succ n =>
    -- the segment before does not reach the window, and so this one starts before it
    have hnot : ¬ windowStart - epochStart + tolerance < ((n : ℚ) + 1) * duration := fun hlt' =>
      absurd ((hfirst n).mpr (Or.inr hlt')) (by omega)
    have hstarted : ((n + 1 : ℕ) : ℚ) * duration ≤ windowStart - epochStart := by
      refine not_lt.mp fun hlt' => hnot ?_
      exact_mod_cast start_exact h (by omega) (by omega) hlt'
    linarith

include hfirst in
/-- The first segment is the least one in the window, if there is any. -/
theorem first_isLeast (hduration : 1 / 1000 ≤ duration)
    (h : ¬ Slips duration epochStart windowStart windowEnd manifestEnd)
    (hnonempty : (included duration epochStart windowStart windowEnd manifestEnd).Nonempty) :
    IsLeast (included duration epochStart windowStart windowEnd manifestEnd) first := by
  have htolerance : (0 : ℚ) < tolerance := by rw [tolerance]; norm_num
  have hfirstM : first ≤ manifestEnd := (hfirst manifestEnd).mpr (Or.inl le_rfl)
  have hlower : ∀ i ∈ included duration epochStart windowStart windowEnd manifestEnd,
      first ≤ i := by
    intro i hi
    obtain ⟨hiM, histart, -⟩ := mem_included.mp hi
    rcases Nat.eq_or_lt_of_le hiM with hiM | hiM
    · exact hiM ▸ hfirstM
    · refine (hfirst i).mpr (Or.inr ?_)
      exact_mod_cast start_exact h (by omega) hiM (by exact_mod_cast histart)
  obtain ⟨a, ha⟩ := hnonempty
  obtain ⟨haM, hastart, haend⟩ := mem_included.mp ha
  refine ⟨mem_included.mpr ⟨hfirstM, ?_, (mul_duration_le hduration (hlower a ha)).trans_lt haend⟩,
    hlower⟩
  rcases (hfirst first).mp le_rfl with hle | hlt
  · have hstep := mul_duration_le hduration (show a + 1 ≤ first + 1 by omega)
    push_cast at hstep
    linarith
  · linarith

include hlast in
/-- And the last segment is the greatest. -/
theorem last_isGreatest (hduration : 1 / 1000 ≤ duration)
    (h : ¬ Slips duration epochStart windowStart windowEnd manifestEnd)
    (hleast : IsLeast (included duration epochStart windowStart windowEnd manifestEnd) first) :
    IsGreatest (included duration epochStart windowStart windowEnd manifestEnd) last := by
  have htolerance : (0 : ℚ) < tolerance := by rw [tolerance]; norm_num
  obtain ⟨hfirstM, hfirstEnds, hfirstStarts⟩ := mem_included.mp hleast.1
  have hfirstLast : first ≤ last := (hlast first).mpr (Or.inl le_rfl)
  have hends := mul_duration_le hduration (show first + 1 ≤ last + 1 by omega)
  push_cast at hends
  constructor
  · refine mem_included.mpr ⟨?_, by linarith, ?_⟩
    · exact ((hlast last).mp le_rfl).elim (fun hle => hle.trans hfirstM) And.left
    · rcases (hlast last).mp le_rfl with hle | ⟨-, hlt⟩
      · exact (mul_duration_le hduration hle).trans_lt hfirstStarts
      · linarith
  · intro i hi
    obtain ⟨hiM, -, hiend⟩ := mem_included.mp hi
    by_cases hle : i ≤ first
    · exact hle.trans hfirstLast
    · -- a later one starts after the window does, at a boundary
      have hstep := mul_duration_le hduration (show first + 1 ≤ i by omega)
      push_cast at hstep
      exact (hlast i).mpr (Or.inr ⟨hiM, end_exact h (by omega) hiM (by linarith) hiend⟩)

include hfirst hlast in
/-- Ends that are found by the tolerant tests are right where the tolerance does
not count. -/
theorem ends_of_not_slips (hduration : 1 / 1000 ≤ duration) (hwindow : windowStart < windowEnd)
    (h : ¬ Slips duration epochStart windowStart windowEnd manifestEnd) :
    IsLeast (shown duration epochStart windowStart windowEnd manifestEnd) first
      ∧ IsGreatest (shown duration epochStart windowStart windowEnd manifestEnd) last := by
  by_cases hempty : included duration epochStart windowStart windowEnd manifestEnd = ∅
  · have hfirstM : first ≤ manifestEnd := (hfirst manifestEnd).mpr (Or.inl le_rfl)
    have hfirstEq : first = manifestEnd := by
      by_contra hne
      have hmem := first_mem_included hfirst hwindow h (show first < manifestEnd by omega)
      rw [hempty] at hmem
      exact hmem
    have hlastEq : last = manifestEnd := by
      have hfirstLast : first ≤ last := (hlast first).mpr (Or.inl le_rfl)
      have hlastM : last ≤ manifestEnd :=
        ((hlast last).mp le_rfl).elim (fun hle => hle.trans hfirstM) And.left
      omega
    rw [shown_of_empty hempty, hlastEq, hfirstEq]
    exact ⟨isLeast_singleton, isGreatest_singleton⟩
  · have hnonempty := Set.nonempty_iff_ne_empty.mpr hempty
    have hleast := first_isLeast hfirst hduration h hnonempty
    rw [shown_of_nonempty hnonempty]
    exact ⟨hleast, last_isGreatest hlast hduration h hleast⟩

end Ends

/-- And wrong where it does. -/
theorem not_ends_of_slips (hduration : 1 / 1000 ≤ duration) (hwindow : windowStart < windowEnd)
    {first last : ℕ}
    (hfirst : ∀ i : ℕ, first ≤ i
      ↔ manifestEnd ≤ i ∨ windowStart - epochStart + tolerance < (i + 1) * duration)
    (hlast : ∀ i : ℕ, i ≤ last
      ↔ i ≤ first ∨ i ≤ manifestEnd ∧ i * duration < windowEnd - epochStart - tolerance)
    (h : Slips duration epochStart windowStart windowEnd manifestEnd)
    (hleast : IsLeast (shown duration epochStart windowStart windowEnd manifestEnd) first)
    (hgreatest : IsGreatest (shown duration epochStart windowStart windowEnd manifestEnd) last) :
    False := by
  have htolerance : tolerance < 1 / 1000 := by rw [tolerance]; norm_num
  -- a published segment that starts before the window's end, after a boundary past its start
  have hlisted : ∀ i : ℕ, i + 1 ≤ manifestEnd → windowStart - epochStart < (i + 1) * duration →
      i * duration < windowEnd - epochStart →
      i ∈ shown duration epochStart windowStart windowEnd manifestEnd := fun i hiM hstart hend =>
    Or.inl (mem_included.mpr ⟨by omega, hstart, hend⟩)
  rcases h with ⟨hbefore, hpos⟩ | ⟨j, hj, hjM, hstart, hnear⟩ | ⟨j, hj, hjM, hstart, hend, hnear⟩
  · -- nothing is in the window, but the first segment ends after its start
    have hempty : included duration epochStart windowStart windowEnd manifestEnd = ∅ := by
      refine Set.eq_empty_of_forall_notMem fun i hi => ?_
      have hend := (mem_included.mp hi).2.2
      have hnonneg : 0 ≤ (i : ℚ) * duration := mul_nonneg (Nat.cast_nonneg i) (by linarith)
      linarith
    have hzero : first ≤ 0 := (hfirst 0).mpr (Or.inr (by
      rw [Nat.cast_zero, zero_add, one_mul]
      linarith))
    have hfirstM := hleast.1
    rw [shown_of_empty hempty, Set.mem_singleton_iff] at hfirstM
    omega
  · -- the segment up to the boundary is in the window, and the first test passes over it
    obtain ⟨i, rfl⟩ : ∃ i, j = i + 1 := ⟨j - 1, by omega⟩
    push_cast at hstart hnear
    have hmem := hlisted i hjM hstart (by linarith)
    rcases (hfirst i).mp (hleast.2 hmem) with hle | hlt
    · omega
    · linarith
  · -- the segment from the boundary on is in the window, and the last test leaves it out
    obtain ⟨i, rfl⟩ : ∃ i, j = i + 1 := ⟨j - 1, by omega⟩
    have hgreater : i + 1 ∈ shown duration epochStart windowStart windowEnd manifestEnd := by
      refine Or.inl (mem_included.mpr ⟨hjM, ?_, hend⟩)
      linarith
    have hlesser : i ∈ shown duration epochStart windowStart windowEnd manifestEnd := by
      push_cast at hstart hend
      exact hlisted i hjM hstart (by linarith)
    have hfirstI := hleast.2 hlesser
    rcases (hlast (i + 1)).mp (hgreatest.2 hgreater) with hle | ⟨-, hlt⟩
    · omega
    · linarith

/-- The slice has the right ends exactly where the tolerance does not count. -/
theorem slice_iff (hduration : 1 / 1000 ≤ duration) (hepoch : 0 ≤ epochStart)
    (hwindow : windowStart < windowEnd) :
    IsLeast (shown duration epochStart windowStart windowEnd manifestEnd)
        (sliceManifestSegmentsForWindow manifestEnd duration epochStart windowStart
          windowEnd).firstSegmentIndex
      ∧ IsGreatest (shown duration epochStart windowStart windowEnd manifestEnd)
        (sliceManifestSegmentsForWindow manifestEnd duration epochStart windowStart
          windowEnd).lastSegmentIndex
      ↔ ¬ Slips duration epochStart windowStart windowEnd manifestEnd := by
  have hfirst := @first_le_iff duration epochStart windowStart windowEnd manifestEnd hduration
    hepoch hwindow
  have hlast := @le_last_iff duration epochStart windowStart windowEnd manifestEnd hduration
    hepoch hwindow
  constructor
  · rintro ⟨hleast, hgreatest⟩ hslips
    exact not_ends_of_slips hduration hwindow hfirst hlast hslips hleast hgreatest
  · exact ends_of_not_slips hfirst hlast hduration hwindow

/-- Between two segments that are listed, all are. -/
theorem mem_shown_iff (hduration : 1 / 1000 ≤ duration) {first last : ℕ}
    (hleast : IsLeast (shown duration epochStart windowStart windowEnd manifestEnd) first)
    (hgreatest : IsGreatest (shown duration epochStart windowStart windowEnd manifestEnd) last)
    (i : ℕ) :
    i ∈ shown duration epochStart windowStart windowEnd manifestEnd ↔ first ≤ i ∧ i ≤ last := by
  refine ⟨fun hi => ⟨hleast.2 hi, hgreatest.2 hi⟩, ?_⟩
  rintro ⟨hfirst, hlast⟩
  have hleast' := hleast.1
  have hgreatest' := hgreatest.1
  by_cases hempty : included duration epochStart windowStart windowEnd manifestEnd = ∅
  · rw [shown_of_empty hempty, Set.mem_singleton_iff] at hleast' hgreatest' ⊢
    omega
  · rw [shown_of_nonempty (Set.nonempty_iff_ne_empty.mpr hempty), mem_included]
      at hleast' hgreatest' ⊢
    have hends := mul_duration_le hduration (show first + 1 ≤ i + 1 by omega)
    have hstarts := mul_duration_le hduration hlast
    push_cast at hends
    exact ⟨hlast.trans hgreatest'.1, by linarith, by linarith⟩

end SliceEnds

/-! ### The playlist -/

/-- The seconds and the index of each segment that a playlist lists. -/
def listed : List Line → List (ℚ × ℕ)
  | .extInf seconds :: .segment index :: rest => (seconds, index) :: listed rest
  | _ :: rest => listed rest
  | [] => []

theorem listed_segmentLines (segmentDuration epochStart duration : ℚ) (first last : ℕ)
    (complete : Bool) :
    listed (segmentLines segmentDuration epochStart duration first last
        ++ if complete then [.endList] else [])
      = (List.range' first (last + 1 - first)).map fun index =>
          (segmentSeconds segmentDuration epochStart duration index, index) := by
  rw [segmentLines]
  generalize List.range' first (last + 1 - first) = indexes
  induction indexes with
  | nil => cases complete <;> rfl
  | cons index rest ih =>
    rw [List.flatMap_cons, List.append_assoc, List.map_cons, ← ih]
    rfl

theorem round3_mono {x y : ℚ} (h : x ≤ y) : round3 x ≤ round3 y := by
  have hround : (roundHalfEven (1000 * x) : ℚ) ≤ roundHalfEven (1000 * y) := by
    exact_mod_cast roundHalfEven_mono (by linarith)
  rw [round3, round3]
  linarith

theorem round3_intCast (n : ℤ) : round3 n = n := by
  have hthousand : (1000 : ℚ) * n = ((1000 * n : ℤ) : ℚ) := by push_cast; ring
  rw [round3, hthousand, roundHalfEven_intCast, ← hthousand]
  ring

/-- No `#EXTINF` is above the target duration. -/
theorem segmentSeconds_le (segmentDuration epochStart duration : ℚ) (index : ℕ) :
    segmentSeconds segmentDuration epochStart duration index ≤ ⌈segmentDuration⌉ := by
  have hceil := Int.le_ceil segmentDuration
  rw [← round3_intCast ⌈segmentDuration⌉, segmentSeconds]
  split_ifs
  · exact round3_mono ((min_le_left _ _).trans hceil)
  · exact round3_mono hceil

namespace Epoch

variable (epoch : Epoch) (windowStart windowEnd : ℚ)

/-- The slice of the playlist of a window. -/
def slice : Slice :=
  sliceManifestSegmentsForWindow epoch.manifestEndSegment epoch.segmentDurationSeconds
    epoch.epochStartSeconds windowStart windowEnd

/-- The segments that the playlist of a window should list. -/
def shown : Set ℕ :=
  WindowedPlaylist.shown epoch.segmentDurationSeconds epoch.epochStartSeconds windowStart windowEnd
    epoch.manifestEndSegment

/-- The segments of the whole epoch, as its playlist lists them. -/
def segment (index : ℕ) : ℚ × ℕ :=
  (segmentSeconds (max (1 / 1000) epoch.segmentDurationSeconds) (max 0 epoch.epochStartSeconds)
    (max 0 epoch.durationSeconds) index, index)

theorem listed_full :
    listed (renderRoute2EpochManifestText epoch none)
      = (List.range' 0 (epoch.manifestEndSegment + 1)).map epoch.segment := by
  rw [renderRoute2EpochManifestText]
  simp only [Option.filter_none, Option.map_none, Option.getD_none, Option.isSome_none,
    Bool.false_eq_true, if_false, List.cons_append, List.nil_append, listed]
  exact listed_segmentLines _ _ _ 0 epoch.manifestEndSegment _

variable {epoch windowStart windowEnd}

/-- The lines of the playlist of a window. -/
theorem render_window (hduration : 1 / 1000 ≤ epoch.segmentDurationSeconds)
    (hepoch : 0 ≤ epoch.epochStartSeconds) (hwindow : windowStart < windowEnd) :
    ∃ offset : ℚ, renderRoute2EpochManifestText epoch (some (windowStart, windowEnd))
      = [.extM3u, .version 7, .targetDuration ⌈epoch.segmentDurationSeconds⌉,
          .mediaSequence (epoch.slice windowStart windowEnd).firstSegmentIndex,
          .independentSegments, .map "init.mp4", .start offset]
        ++ (segmentLines epoch.segmentDurationSeconds epoch.epochStartSeconds
            (max 0 epoch.durationSeconds) (epoch.slice windowStart windowEnd).firstSegmentIndex
            (epoch.slice windowStart windowEnd).lastSegmentIndex
          ++ if epoch.manifestComplete then [.endList] else []) := by
  have hfilter : (some (windowStart, windowEnd)).filter (fun w : ℚ × ℚ => decide (w.1 < w.2))
      = some (windowStart, windowEnd) := by
    rw [Option.filter_some, if_pos (decide_eq_true hwindow)]
  have hmedia : (sliceManifestSegmentsForWindow epoch.manifestEndSegment
      epoch.segmentDurationSeconds epoch.epochStartSeconds windowStart
        windowEnd).mediaSequenceNumber
      = (epoch.slice windowStart windowEnd).firstSegmentIndex := by
    rw [slice, sliceManifestSegmentsForWindow, if_neg (not_le.mpr hwindow)]
  rw [renderRoute2EpochManifestText, hfilter, max_eq_right hduration, max_eq_right hepoch]
  simp only [Option.map_some, Option.getD_some, Option.isSome_some, if_true, List.cons_append,
    List.nil_append, hmedia]
  exact ⟨_, rfl⟩

/-- What the playlist of a window should be, beside the playlist of the epoch. -/
structure RightPlaylist (epoch : Epoch) (windowStart windowEnd : ℚ) : Prop where
  first : IsLeast (epoch.shown windowStart windowEnd)
    (epoch.slice windowStart windowEnd).firstSegmentIndex
  last : IsGreatest (epoch.shown windowStart windowEnd)
    (epoch.slice windowStart windowEnd).lastSegmentIndex
  segments : ∀ listedSegment : ℚ × ℕ,
    listedSegment ∈ listed (renderRoute2EpochManifestText epoch (some (windowStart, windowEnd)))
      ↔ listedSegment ∈ listed (renderRoute2EpochManifestText epoch none)
        ∧ listedSegment.2 ∈ epoch.shown windowStart windowEnd
  ordered : ((listed (renderRoute2EpochManifestText epoch (some (windowStart, windowEnd)))).map
    Prod.snd).Pairwise (· < ·)
  mediaSequence : ∀ n : ℕ,
    .mediaSequence n ∈ renderRoute2EpochManifestText epoch (some (windowStart, windowEnd))
      ↔ n = (epoch.slice windowStart windowEnd).firstSegmentIndex
  targetDuration : ∀ (seconds : ℚ) (target : ℤ),
    .extInf seconds ∈ renderRoute2EpochManifestText epoch (some (windowStart, windowEnd)) →
    .targetDuration target ∈ renderRoute2EpochManifestText epoch (some (windowStart, windowEnd)) →
    seconds ≤ target

theorem mem_segmentLines {line : Line} {segmentDuration epochStart duration : ℚ} {first last : ℕ}
    (h : line ∈ segmentLines segmentDuration epochStart duration first last) :
    (∃ index, line = .extInf (segmentSeconds segmentDuration epochStart duration index))
      ∨ ∃ index, line = .segment index := by
  obtain ⟨index, -, hline⟩ := List.mem_flatMap.mp h
  rcases List.mem_cons.mp hline with hline | hline
  · exact Or.inl ⟨index, hline⟩
  · exact Or.inr ⟨index, List.mem_singleton.mp hline⟩

/-- A line of the playlist of a window. -/
theorem mem_render_window (hduration : 1 / 1000 ≤ epoch.segmentDurationSeconds)
    (hepoch : 0 ≤ epoch.epochStartSeconds) (hwindow : windowStart < windowEnd) {line : Line}
    (h : line ∈ renderRoute2EpochManifestText epoch (some (windowStart, windowEnd))) :
    line = .targetDuration ⌈epoch.segmentDurationSeconds⌉
      ∨ line = .mediaSequence (epoch.slice windowStart windowEnd).firstSegmentIndex
      ∨ (∃ index, line = .extInf (segmentSeconds epoch.segmentDurationSeconds
          epoch.epochStartSeconds (max 0 epoch.durationSeconds) index))
      ∨ ((∀ target, line ≠ .targetDuration target) ∧ (∀ n, line ≠ .mediaSequence n)
        ∧ ∀ seconds, line ≠ .extInf seconds) := by
  obtain ⟨offset, hrender⟩ := render_window hduration hepoch hwindow
  rw [hrender, List.mem_append, List.mem_append] at h
  rcases h with hheader | hlines | hend
  · simp only [List.mem_cons, List.not_mem_nil, or_false] at hheader
    rcases hheader with rfl | rfl | rfl | rfl | rfl | rfl | rfl <;> simp
  · rcases mem_segmentLines hlines with hline | ⟨index, rfl⟩
    · exact Or.inr (Or.inr (Or.inl hline))
    · simp
  · split_ifs at hend
    · rw [List.mem_singleton.mp hend]
      simp
    · cases hend

/-- `#EXT-X-MEDIA-SEQUENCE` is the first index of the slice. -/
theorem mediaSequence_mem_iff (hduration : 1 / 1000 ≤ epoch.segmentDurationSeconds)
    (hepoch : 0 ≤ epoch.epochStartSeconds) (hwindow : windowStart < windowEnd) (n : ℕ) :
    .mediaSequence n ∈ renderRoute2EpochManifestText epoch (some (windowStart, windowEnd))
      ↔ n = (epoch.slice windowStart windowEnd).firstSegmentIndex := by
  constructor
  · intro hmem
    rcases mem_render_window hduration hepoch hwindow hmem with
      hline | hline | ⟨_, hline⟩ | ⟨-, hother, -⟩
    · cases hline
    · exact Line.mediaSequence.inj hline
    · cases hline
    · exact absurd rfl (hother n)
  · rintro rfl
    obtain ⟨offset, hrender⟩ := render_window hduration hepoch hwindow
    rw [hrender]
    simp

/-- No `#EXTINF` of the playlist is above its target duration. -/
theorem extInf_le_targetDuration (hduration : 1 / 1000 ≤ epoch.segmentDurationSeconds)
    (hepoch : 0 ≤ epoch.epochStartSeconds) (hwindow : windowStart < windowEnd) {seconds : ℚ}
    {target : ℤ}
    (hseconds : .extInf seconds
      ∈ renderRoute2EpochManifestText epoch (some (windowStart, windowEnd)))
    (htarget : .targetDuration target
      ∈ renderRoute2EpochManifestText epoch (some (windowStart, windowEnd))) :
    seconds ≤ target := by
  have hceil : target = ⌈epoch.segmentDurationSeconds⌉ := by
    rcases mem_render_window hduration hepoch hwindow htarget with
      hline | hline | ⟨_, hline⟩ | ⟨hother, -, -⟩
    · exact Line.targetDuration.inj hline
    · cases hline
    · cases hline
    · exact absurd rfl (hother target)
  rcases mem_render_window hduration hepoch hwindow hseconds with
    hline | hline | ⟨index, hline⟩ | ⟨-, -, hother⟩
  · cases hline
  · cases hline
  · rw [hceil, Line.extInf.inj hline]
    exact segmentSeconds_le _ _ _ index
  · exact absurd rfl (hother seconds)

/-- The playlist of a window lists the slice, segment by segment as that of the epoch does. -/
theorem listed_window (hduration : 1 / 1000 ≤ epoch.segmentDurationSeconds)
    (hepoch : 0 ≤ epoch.epochStartSeconds) (hwindow : windowStart < windowEnd) :
    listed (renderRoute2EpochManifestText epoch (some (windowStart, windowEnd)))
      = (List.range' (epoch.slice windowStart windowEnd).firstSegmentIndex
          ((epoch.slice windowStart windowEnd).lastSegmentIndex + 1
            - (epoch.slice windowStart windowEnd).firstSegmentIndex)).map epoch.segment := by
  obtain ⟨offset, hrender⟩ := render_window hduration hepoch hwindow
  rw [hrender]
  simp only [List.cons_append, List.nil_append, listed]
  rw [listed_segmentLines]
  unfold segment
  rw [max_eq_right hduration, max_eq_right hepoch]

/-- A slice with the right ends gives the right playlist. -/
theorem rightPlaylist_of_ends (hduration : 1 / 1000 ≤ epoch.segmentDurationSeconds)
    (hepoch : 0 ≤ epoch.epochStartSeconds) (hwindow : windowStart < windowEnd)
    (hfirst : IsLeast (epoch.shown windowStart windowEnd)
      (epoch.slice windowStart windowEnd).firstSegmentIndex)
    (hlast : IsGreatest (epoch.shown windowStart windowEnd)
      (epoch.slice windowStart windowEnd).lastSegmentIndex) :
    RightPlaylist epoch windowStart windowEnd := by
  have hlisted := listed_window hduration hepoch hwindow
  have hbetween := mem_shown_iff hduration hfirst hlast
  have hpublished : ∀ i ∈ epoch.shown windowStart windowEnd, i ≤ epoch.manifestEndSegment := by
    rintro i (hi | ⟨-, hi⟩)
    · exact hi.1
    · exact hi.le
  refine ⟨hfirst, hlast, fun listedSegment => ?_, ?_,
    mediaSequence_mem_iff hduration hepoch hwindow,
    fun _ _ => extInf_le_targetDuration hduration hepoch hwindow⟩
  · rw [hlisted, listed_full]
    simp only [List.mem_map, List.mem_range'_1]
    constructor
    · rintro ⟨index, hindex, rfl⟩
      have hshown : index ∈ epoch.shown windowStart windowEnd :=
        (hbetween index).mpr ⟨hindex.1, by omega⟩
      have hle := hpublished index hshown
      exact ⟨⟨index, by omega, rfl⟩, hshown⟩
    · rintro ⟨⟨index, -, rfl⟩, hshown⟩
      have hends := (hbetween index).mp hshown
      exact ⟨index, by omega, rfl⟩
  · have hindexes : Prod.snd ∘ epoch.segment = id := rfl
    rw [hlisted, List.map_map, hindexes, List.map_id]
    exact List.pairwise_lt_range'

/-- The playlist of a window is right exactly where the window neither ends before the
epoch starts nor touches a boundary up to the tolerance. -/
theorem windowed_playlist_iff (hduration : 1 / 1000 ≤ epoch.segmentDurationSeconds)
    (hepoch : 0 ≤ epoch.epochStartSeconds) (hwindow : windowStart < windowEnd) :
    RightPlaylist epoch windowStart windowEnd
      ↔ ¬ Slips epoch.segmentDurationSeconds epoch.epochStartSeconds windowStart windowEnd
          epoch.manifestEndSegment := by
  rw [← slice_iff hduration hepoch hwindow]
  constructor
  · exact fun hright => ⟨hright.first, hright.last⟩
  · exact fun hends => rightPlaylist_of_ends hduration hepoch hwindow hends.1 hends.2

/-- An epoch that starts ten seconds into the media, with six published segments. -/
def lateEpoch : Epoch where
  epochStartSeconds := 10
  attachPositionSeconds := 12
  manifestEndSegment := 5
  durationSeconds := 3600
  segmentDurationSeconds := 2
  manifestComplete := false

theorem windowed_playlist_inside : RightPlaylist lateEpoch 12 17 := by
  refine (@windowed_playlist_iff lateEpoch 12 17 (by norm_num [lateEpoch]) (by norm_num [lateEpoch])
    (by norm_num)).mpr ?_
  simp only [Slips, lateEpoch, tolerance]
  rintro (⟨hbefore, -⟩ | ⟨j, -, -, hstart, hnear⟩ | ⟨j, -, -, -, hend, hnear⟩)
  · norm_num at hbefore
  · have hlower : (1 : ℚ) < j := by linarith
    have hstep : 2 ≤ j := by exact_mod_cast hlower
    have hcast : (2 : ℚ) ≤ j := by exact_mod_cast hstep
    linarith
  · have hupper : (j : ℚ) < 4 := by linarith
    have hstep : j ≤ 3 := Nat.lt_succ_iff.mp (by exact_mod_cast hupper)
    have hcast : (j : ℚ) ≤ 3 := by exact_mod_cast hstep
    linarith

/-- A window before the epoch, whose ends are on boundaries: it should get the last
published segment, and gets the first. -/
theorem windowed_playlist_before_epoch :
    (2 - 10 : ℚ) = (-4) * 2 ∧ (6 - 10 : ℚ) = (-2) * 2
      ∧ (lateEpoch.slice 2 6).firstSegmentIndex = 0
      ∧ lateEpoch.shown 2 6 = {5}
      ∧ ¬ RightPlaylist lateEpoch 2 6 := by
  have hempty : included 2 10 2 6 5 = ∅ := by
    refine Set.eq_empty_of_forall_notMem fun i hi => ?_
    have hend := (mem_included.mp hi).2.2
    have hnonneg : (0 : ℚ) ≤ i := Nat.cast_nonneg i
    linarith
  have hshown : lateEpoch.shown 2 6 = {5} := shown_of_empty hempty
  have hfirst : (lateEpoch.slice 2 6).firstSegmentIndex = 0 := by decide +kernel
  refine ⟨by norm_num, by norm_num, hfirst, hshown, fun hright => ?_⟩
  have hleast := hright.first.1
  rw [hshown, hfirst, Set.mem_singleton_iff] at hleast
  cases hleast

end Epoch

end WindowedPlaylist
