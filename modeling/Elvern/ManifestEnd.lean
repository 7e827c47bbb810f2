/-
The end of a native-HLS movie (`mobile_playback_service.py`, `route2_native_hls_window.py`).

Whether a manifest is complete is asked of the whole epoch, while the window cuts the segments that
it lists; with `#EXT-X-ENDLIST` a player takes the last one listed for the end of the movie.

* `le_firstCandidate`, `le_lastCandidate` — from which position on a segment is a candidate;
* `slice_last_iff` — when the window leaves the last published segment in the list;
* `Ends`, `endlist_final_iff` — a manifest with the end tag ends with the epoch, and when it does.
-/
import Mathlib.Tactic.Linarith
import Elvern.NativeHlsWindow

open Runs Progress

namespace NativeHls

/-! ### The cut -/

/-- The first segment of the list, from the position of the window's start. -/
theorem le_firstCandidate (r : ℚ) (n : ℤ) :
    n ≤ firstCandidate r ↔ (n : ℚ) * 2 ≤ r + 1 / 1000000 := by
  rw [firstCandidate, segmentDurationSeconds]
  have hlow : (⌊r / 2⌋ : ℚ) ≤ r / 2 := Int.floor_le _
  have hhigh : r / 2 < ⌊r / 2⌋ + 1 := Int.lt_floor_add_one _
  generalize ⌊r / 2⌋ = f at hlow hhigh ⊢
  split_ifs with hnext
  · constructor
    · intro hle
      have hcast : (n : ℚ) ≤ f + 1 := by exact_mod_cast hle
      linarith
    · intro hle
      have hcast : (n : ℚ) < f + 1 + 1 := by linarith
      have hlt : n < f + 1 + 1 := by exact_mod_cast hcast
      omega
  · rw [not_le] at hnext
    constructor
    · intro hle
      have hcast : (n : ℚ) ≤ f := by exact_mod_cast hle
      linarith
    · intro hle
      have hcast : (n : ℚ) < f + 1 := by linarith
      have hlt : n < f + 1 := by exact_mod_cast hcast
      omega

/-- The last segment of the list, from the position of the window's end. -/
theorem le_lastCandidate (r : ℚ) {n : ℤ} (hn : 0 < n) :
    n ≤ lastCandidate r ↔ (n : ℚ) * 2 + 1 / 1000000 < r := by
  rw [lastCandidate, segmentDurationSeconds]
  have hlow : (⌊r / 2⌋ : ℚ) ≤ r / 2 := Int.floor_le _
  have hhigh : r / 2 < ⌊r / 2⌋ + 1 := Int.lt_floor_add_one _
  generalize ⌊r / 2⌋ = f at hlow hhigh ⊢
  split_ifs with hback
  · obtain ⟨hedge, -⟩ := hback
    constructor
    · intro hle
      have hcast : (n : ℚ) ≤ f - 1 := by exact_mod_cast hle
      linarith
    · intro hlt
      have hcast : (n : ℚ) < f := by linarith
      have hlt' : n < f := by exact_mod_cast hcast
      omega
  · constructor
    · intro hle
      have hcast : (n : ℚ) ≤ f := by exact_mod_cast hle
      have hedge : ¬ r - 1 / 1000000 ≤ (f : ℚ) * 2 := fun hedge => hback ⟨hedge, by omega⟩
      rw [not_le] at hedge
      linarith
    · intro hlt
      have hcast : (n : ℚ) < f + 1 := by linarith
      have hlt' : n < f + 1 := by exact_mod_cast hcast
      omega

/-- The window leaves the last published segment in the list: it ends behind the start of that
segment, or starts there or later. -/
def Reaches (epochStart windowStart windowEnd : ℚ) (last : ℕ) : Prop :=
  last = 0 ∨ (last : ℚ) * 2 + 1 / 1000000 < max (max 0 (windowStart - epochStart))
    (windowEnd - epochStart) ∨ (last : ℚ) * 2 ≤ max 0 (windowStart - epochStart) + 1 / 1000000

theorem slice_first_le {last : ℕ} {epochStart windowStart windowEnd : ℚ} :
    (sliceManifestSegmentsForWindow last epochStart windowStart windowEnd).firstSegmentIndex ≤
      (sliceManifestSegmentsForWindow last epochStart windowStart windowEnd).lastSegmentIndex := by
  rw [sliceManifestSegmentsForWindow]
  split_ifs
  · exact le_refl last
  · exact le_max_left _ _

/-- **The cut** keeps the last published segment exactly then. -/
theorem slice_last_iff {last : ℕ} {epochStart windowStart windowEnd : ℚ} (hstart : 0 ≤ epochStart)
    (hwindow : windowStart < windowEnd) :
    (sliceManifestSegmentsForWindow last epochStart windowStart windowEnd).lastSegmentIndex = last ↔
      Reaches epochStart windowStart windowEnd last := by
  rw [sliceManifestSegmentsForWindow, if_neg (not_le.2 hwindow), max_eq_right hstart, Reaches]
  dsimp only
  have hfirst := le_firstCandidate (max 0 (windowStart - epochStart)) last
  rcases Nat.eq_zero_or_pos last with rfl | hpos
  · refine iff_of_true ?_ (Or.inl rfl)
    simp only [Nat.cast_zero]
    omega
  -- the candidates are cut at the last published segment, so it is listed where one of them reaches
  -- it
  · have hlast := @le_lastCandidate (max (max 0 (windowStart - epochStart))
      (windowEnd - epochStart)) last (by exact_mod_cast hpos)
    rw [Int.cast_natCast] at hfirst hlast
    rw [← hlast, ← hfirst]
    omega

/-! ### The list -/

/-- The segments that a playlist lists. -/
def listedSegments (lines : List Line) : List ℕ :=
  lines.filterMap fun line =>
    match line with
    | .segment index => some index
    | _ => none

theorem listed_segmentLines (epochStart duration : ℚ) (first last : ℕ) :
    listedSegments (segmentLines epochStart duration first last) =
        List.range' first (last + 1 - first) := by
  rw [listedSegments, segmentLines]
  generalize List.range' first (last + 1 - first) = indexes
  induction indexes with
  | nil => rfl
  | cons index indexes ih =>
    rw [List.flatMap_cons, List.filterMap_append, ih]
    rfl

theorem listed_append (lines rest : List Line) :
    listedSegments (lines ++ rest) = listedSegments lines ++ listedSegments rest :=
  List.filterMap_append

/-- The cut that a playlist shows. -/
def shownSlice (epochStart : ℚ) (last : ℕ) (window : Option (ℚ × ℚ)) : Slice :=
  ((window.filter fun w => decide (w.1 < w.2)).map fun w =>
    sliceManifestSegmentsForWindow last (max 0 epochStart) w.1 w.2).getD ⟨0, last, 0,
      max 0 epochStart⟩

/-- A playlist lists the segments of its cut. -/
theorem listed_render (epochStart attach : ℚ) (last : ℕ) (duration : ℚ) (complete : Bool)
    (window : Option (ℚ × ℚ)) :
    listedSegments (renderRoute2EpochManifestText epochStart attach last duration complete window) =
      List.range' (shownSlice epochStart last window).firstSegmentIndex
        ((shownSlice epochStart last window).lastSegmentIndex + 1 -
          (shownSlice epochStart last window).firstSegmentIndex) := by
  rw [renderRoute2EpochManifestText, shownSlice]
  generalize (window.filter fun w => decide (w.1 < w.2)).map (fun w =>
    sliceManifestSegmentsForWindow last (max 0 epochStart) w.1 w.2) = slice
  have hevent : listedSegments (if slice.isSome then [] else [Line.playlistTypeEvent]) = [] := by
    cases slice <;> rfl
  have hend : listedSegments (if complete then [Line.endList] else []) = [] := by
    cases complete <;> rfl
  rw [listed_append, listed_append, listed_append, listed_append, hevent, hend, listed_segmentLines,
    List.append_nil]
  rfl

theorem last_listed (epochStart attach : ℚ) (last : ℕ) (duration : ℚ) (complete : Bool)
    (window : Option (ℚ × ℚ)) :
    (listedSegments (renderRoute2EpochManifestText epochStart attach last duration complete
      window)).getLast? = some (shownSlice epochStart last window).lastSegmentIndex := by
  have hle : (shownSlice epochStart last window).firstSegmentIndex ≤
      (shownSlice epochStart last window).lastSegmentIndex := by
    rw [shownSlice]
    cases window.filter fun w => decide (w.1 < w.2) with
    | none => exact Nat.zero_le last
    | some w => exact slice_first_le
  rw [listed_render, List.getLast?_range', if_neg (by omega)]
  congr 1
  omega

/-- The last published segment is shown where the window, if there is one, reaches it. -/
theorem shown_last_iff {epochStart : ℚ} (hstart : 0 ≤ epochStart) (last : ℕ)
    (window : Option (ℚ × ℚ)) : (shownSlice epochStart last window).lastSegmentIndex = last ↔
      ∀ w ∈ window, w.1 < w.2 → Reaches epochStart w.1 w.2 last := by
  rw [shownSlice, max_eq_right hstart]
  cases window with
  | none => exact iff_of_true rfl fun w hw => absurd hw (Option.not_mem_none w)
  | some w =>
    simp only [Option.mem_some_iff, forall_eq']
    -- an empty window is taken for none
    by_cases hw : w.1 < w.2
    · have hfilter : (some w).filter (fun w => decide (w.1 < w.2)) = some w := by simp [hw]
      rw [hfilter, Option.map_some, Option.getD_some, slice_last_iff hstart hw]
      exact ⟨fun h _ => h, fun h => h hw⟩
    · have hfilter : (some w).filter (fun w => decide (w.1 < w.2)) = none := by simpa using hw
      rw [hfilter]
      exact iff_of_true rfl fun h => absurd h hw

/-- The end tag is there where the manifest is complete. -/
theorem endList_mem (epochStart attach : ℚ) (last : ℕ) (duration : ℚ) (complete : Bool)
    (window : Option (ℚ × ℚ)) :
    Line.endList ∈ renderRoute2EpochManifestText epochStart attach last duration complete window ↔
      complete = true := by
  have hsegments : ∀ first final, Line.endList ∉ segmentLines (max 0 epochStart)
    (max 0 duration) first
      final := by
    intro first final hmem
    obtain ⟨index, -, hline⟩ := List.mem_flatMap.1 hmem
    simp at hline
  rw [renderRoute2EpochManifestText]
  rw [List.mem_append, List.mem_append, List.mem_append, List.mem_append]
  constructor
  · rintro ((((h | h) | h) | h) | h)
    · simp at h
    · split_ifs at h
      · cases h
      · simp at h
    · simp at h
    · exact absurd h (hsegments _ _)
    · split_ifs at h with hcomplete
      · exact hcomplete
      · cases h
  · intro hcomplete
    right
    rw [if_pos hcomplete]
    exact List.mem_singleton_self _

/-! ### Manifest requests -/

namespace Session

variable (s : Session) (epoch : Epoch)

/-- The last segment of the movie in the epoch. -/
def finalSegment : ℤ := ⌈(s.durationSeconds - epoch.epochStartSeconds) / segmentDurationSeconds⌉ - 1

/-- A manifest of the epoch with the end tag lists the rest of the movie, and the transcoder is
done. -/
def Ends : Prop :=
  ∀ lines, s.getRoute2EpochManifestContent epoch = some lines → .endList ∈ lines →
    epoch.transcoderCompleted = true ∧
      (listedSegments lines).getLast?.map (fun index : ℕ => (index : ℤ)) =
        some (s.finalSegment epoch)

/-- A complete manifest is served: the transcoder is done, and everything is published. -/
def Complete : Prop :=
  epoch.initPublished = true ∧ epoch.transcoderCompleted = true ∧
    ∃ frontier ∈ epoch.contiguousPublishedThroughSegment, s.finalSegment epoch ≤ frontier

/-- The window that is served, if there is one, reaches the final segment. -/
def WindowReaches : Prop :=
  ∀ w ∈ s.servedWindow, w.1 < w.2 →
    Reaches epoch.epochStartSeconds w.1 w.2 (s.finalSegment epoch).toNat

variable {s epoch}

/-- The epoch starts within the movie. -/
structure Within (s : Session) (epoch : Epoch) : Prop where
  nonneg : 0 ≤ epoch.epochStartSeconds
  before : epoch.epochStartSeconds < s.durationSeconds

theorem Within.total (h : s.Within epoch) :
    ((s.totalEpochSegments epoch - 1 : ℕ) : ℤ) = s.finalSegment epoch := by
  have hpos : 0 < ⌈(s.durationSeconds - epoch.epochStartSeconds) / segmentDurationSeconds⌉ := by
    refine Int.ceil_pos.2 (div_pos (sub_pos.2 h.before) ?_)
    norm_num [segmentDurationSeconds]
  rw [totalEpochSegments, finalSegment, max_eq_left (sub_nonneg.2 h.before.le)]
  omega

/-- **A manifest request** ends the list with the movie exactly where it serves no complete manifest
yet, or its window reaches the final segment. -/
theorem Within.ends_iff (h : s.Within epoch) :
    s.Ends epoch ↔ ¬ s.Complete epoch ∨ s.WindowReaches epoch := by
  have htotal := h.total
  have hfinal : (s.finalSegment epoch).toNat = s.totalEpochSegments epoch - 1 := by omega
  rw [Ends, Complete, WindowReaches, hfinal]
  cases hinit : epoch.initPublished with
  | false =>
    refine iff_of_true ?_ (Or.inl fun hcomplete => Bool.false_ne_true hcomplete.1)
    intro lines hlines
    rw [getRoute2EpochManifestContent, hinit] at hlines
    cases hlines
  | true =>
    cases hfrontier : epoch.contiguousPublishedThroughSegment with
    | none =>
      refine iff_of_true ?_ (Or.inl ?_)
      · intro lines hlines
        rw [getRoute2EpochManifestContent, hinit, hfrontier] at hlines
        cases hlines
      · rintro ⟨-, -, frontier, hmem, -⟩
        cases hmem
    | some frontier =>
      have hcontent : s.getRoute2EpochManifestContent epoch = some (renderRoute2EpochManifestText
          epoch.epochStartSeconds epoch.attachPositionSeconds
          (min frontier (s.totalEpochSegments epoch - 1)) s.durationSeconds
          (epoch.transcoderCompleted && decide (s.totalEpochSegments epoch - 1 ≤
            min frontier (s.totalEpochSegments epoch - 1))) s.servedWindow) := by
        rw [getRoute2EpochManifestContent, hinit, hfrontier]
      simp only [hcontent, Option.some_inj, forall_eq', endList_mem, last_listed, Bool.and_eq_true,
        decide_eq_true_eq, Option.map_some, Option.mem_some_iff, exists_eq_left', true_and]
      by_cases hdone : epoch.transcoderCompleted = true ∧ s.totalEpochSegments epoch - 1 ≤
          min frontier (s.totalEpochSegments epoch - 1)
      · obtain ⟨hcompleted, hall⟩ := hdone
        have hmin : min frontier (s.totalEpochSegments epoch - 1) =
            s.totalEpochSegments epoch - 1 :=
          le_antisymm (min_le_right _ _) hall
        have hle : s.finalSegment epoch ≤ frontier := by omega
        have hshown := shown_last_iff h.nonneg (s.totalEpochSegments epoch - 1) s.servedWindow
        rw [hmin, ← hshown, ← htotal, Int.natCast_inj]
        constructor
        · intro hends
          exact Or.inr (hends ⟨hcompleted, le_refl _⟩).2
        · rintro (hnot | hlast) -
          · rw [htotal] at hnot
            exact absurd ⟨hcompleted, hle⟩ hnot
          · exact ⟨hcompleted, hlast⟩
      · refine iff_of_true (fun hcomplete => absurd hcomplete hdone) (Or.inl ?_)
        rintro ⟨hcompleted, hle⟩
        exact hdone ⟨hcompleted, le_min (by omega) (le_refl _)⟩

end Session

/-! ### Runs -/

/-- Every epoch starts within the movie. -/
def Session.AllWithin (s : Session) : Prop := ∀ id epoch, s.epochs id = some epoch → s.Within epoch

section Runs

variable {s s' : Session}

theorem updateRuntime_keeps (h : Heartbeat) :
    (s.updateRuntime h).epochs = s.epochs ∧ (s.updateRuntime h).durationSeconds =
    s.durationSeconds := by
  have hadvance : ∀ (t : Session) (tier : Option BufferTier),
      (t.maybeAdvanceNativeHlsWindow tier).epochs = t.epochs ∧
        (t.maybeAdvanceNativeHlsWindow tier).durationSeconds = t.durationSeconds := by
    intro t tier
    obtain ⟨emitted, heq⟩ := t.advance_emitted tier
    rw [heq]
    exact ⟨rfl, rfl⟩
  exact hadvance (s.observe h) h.bufferTier

/-- An epoch is built at most 20 seconds before a position in the movie. -/
theorem within_build (hd : 0 < s.durationSeconds) (target : ℚ) :
    s.Within (s.buildRoute2Epoch target) := by
  refine ⟨le_max_left _ _, max_lt hd ?_⟩
  have hclamp : clampTime target s.durationSeconds ≤ s.durationSeconds := by
    rw [clampTime, if_neg (not_le.2 hd)]
    exact (min_le_right _ _).trans (max_le (by linarith) hd.le)
  have hround := round2_le (clampTime target s.durationSeconds - 20)
  linarith

theorem within_set {id : ℕ} {epoch : Epoch} (h : s.AllWithin) (hepoch : s.Within epoch) :
    (s.setEpoch id epoch).AllWithin := by
  intro other found hfound
  by_cases hother : other = id
  · have hself : (s.setEpoch id epoch).epochs id = some epoch := Function.update_self ..
    rw [hother, hself, Option.some_inj] at hfound
    rw [← hfound]
    exact ⟨hepoch.nonneg, hepoch.before⟩
  · have hkept : (s.setEpoch id epoch).epochs other = s.epochs other :=
      Function.update_of_ne hother ..
    rw [hkept] at hfound
    exact ⟨(h other found hfound).nonneg, (h other found hfound).before⟩

/-- **An operation** keeps the duration, and the epochs within the movie. -/
theorem step_within (hd : 0 < s.durationSeconds) (h : s.AllWithin) {action : Session.Action}
    (hstep : s.step action = some s') : s'.AllWithin ∧ s'.durationSeconds = s.durationSeconds := by
  cases action with
  | createEpoch id target =>
    rw [Session.step] at hstep
    split at hstep
    · cases hstep
      exact ⟨within_set h (within_build hd target), rfl⟩
    · cases hstep
  | publish id initPublished frontier =>
    obtain ⟨epoch, hepoch, rfl⟩ := Option.map_eq_some_iff.1 hstep
    exact ⟨within_set h ⟨(h id epoch hepoch).nonneg, (h id epoch hepoch).before⟩, rfl⟩
  | complete id =>
    obtain ⟨epoch, hepoch, rfl⟩ := Option.map_eq_some_iff.1 hstep
    exact ⟨within_set h ⟨(h id epoch hepoch).nonneg, (h id epoch hepoch).before⟩, rfl⟩
  | heartbeat beat =>
    cases hstep
    obtain ⟨hepochs, hduration⟩ := @updateRuntime_keeps s beat
    refine ⟨fun id epoch hepoch => ?_, hduration⟩
    rw [hepochs] at hepoch
    obtain ⟨hnonneg, hbefore⟩ := h id epoch hepoch
    refine ⟨hnonneg, ?_⟩
    rw [hduration]
    exact hbefore

theorem reach_within (hd : 0 < s.durationSeconds) (h : s.AllWithin)
    (hs : Reach Session.step (fun _ _ => True) s s') :
    s'.AllWithin ∧ s'.durationSeconds = s.durationSeconds := by
  refine Reach.invariant
    (P := fun t : Session => t.AllWithin ∧ t.durationSeconds = s.durationSeconds) ⟨h, rfl⟩ ?_ hs
  intro t action t' _ ht _ hstep
  have hpos : 0 < t.durationSeconds := by
    rw [ht.2]
    exact hd
  obtain ⟨hwithin, hduration⟩ := step_within hpos ht.1 hstep
  exact ⟨hwithin, hduration.trans ht.2⟩

end Runs

/-- In every run of a session, a manifest with the end tag is served only when the transcoder is
done; and the manifest of an epoch ends with the movie exactly where no complete manifest is served
yet, or the window of the session, if one is served, reaches the final segment. -/
theorem endlist_final_iff (s₀ s : Session) (hd : 0 < s₀.durationSeconds)
    (h₀ : ∀ id, s₀.epochs id = none)
    (hs : Reach Session.step (fun _ _ => True) s₀ s) (id : ℕ) (epoch : Epoch)
    (hepoch : s.epochs id = some epoch) :
    (∀ lines, s.getRoute2EpochManifestContent epoch = some lines → .endList ∈ lines →
      epoch.transcoderCompleted = true) ∧
    (s.Ends epoch ↔ ¬ s.Complete epoch ∨ s.WindowReaches epoch) := by
  have hwithin : s₀.AllWithin := by
    intro id' epoch' hepoch'
    rw [h₀] at hepoch'
    cases hepoch'
  refine ⟨?_, ((reach_within hd hwithin hs).1 id epoch hepoch).ends_iff⟩
  intro lines hlines hend
  rw [Session.getRoute2EpochManifestContent] at hlines
  split at hlines
  · cases hlines
    rw [endList_mem, Bool.and_eq_true] at hend
    exact hend.1
  · cases hlines

/-- A session before its first epoch, on a movie of ten minutes. -/
def newSession : Session where
  durationSeconds := 600
  nativeHls := true
  playbackMode := .full
  lifecycleState := .attached
  clientCurrentTimeSeconds := none
  committedPlayheadSeconds := 0
  actualMediaElementTimeSeconds := 0
  lastStablePositionSeconds := 0
  targetPositionSeconds := 0
  attachRevision := 1
  epochs := fun _ => none
  activeEpochId := some 0
  emitted := ⟨false, ⟨0, 0, 0, 0, 0⟩, none, none, 0⟩

/-- The transcoder is done with the whole movie while the client plays at a position. -/
def transcodedAhead (position : ℚ) : List Session.Action :=
  [.createEpoch 0 0, .heartbeat (.playingAt position), .publish 0 true (some 299), .complete 0]

theorem endlist_final_near : ∃ s, runFrom Session.step newSession (transcodedAhead 590) = some s ∧
    ∃ epoch, s.epochs 0 = some epoch ∧ s.Ends epoch := by
  have hrun : ((runFrom Session.step newSession (transcodedAhead 590)).any fun s =>
      (s.epochs 0).any fun epoch => decide (s.servedWindow = some (470, 600) ∧
        s.finalSegment epoch = 299 ∧ epoch.epochStartSeconds = 0)) = true := by
    decide +kernel
  obtain ⟨s, hs, hany⟩ := (Option.any_eq_true _ _).1 hrun
  obtain ⟨epoch, hepoch, hset⟩ := (Option.any_eq_true _ _).1 hany
  obtain ⟨hwindow, hfinal, hstart⟩ := of_decide_eq_true hset
  refine ⟨s, hs, epoch, hepoch, ?_⟩
  refine (endlist_final_iff newSession s (by decide +kernel) (fun _ => rfl)
    (reach_of_runFrom hs) 0 epoch hepoch).2.2 (Or.inr ?_)
  intro w hw _
  rw [hwindow, Option.mem_some_iff] at hw
  rw [← hw, hfinal, hstart]
  refine Or.inr (Or.inl (lt_max_of_lt_right ?_))
  have hnumber : (299 : ℤ).toNat = 299 := rfl
  rw [hnumber]
  norm_num

/-- The client is at ten seconds when the transcoder is done with all ten minutes: its manifest has
the end tag behind the segment 64 of 299. -/
theorem endlist_early : ∃ s, runFrom Session.step newSession (transcodedAhead 10) = some s ∧
    ∃ epoch, s.epochs 0 = some epoch ∧ s.finalSegment epoch = 299 ∧
      ∃ lines, s.getRoute2EpochManifestContent epoch = some lines ∧ .endList ∈ lines ∧
        (listedSegments lines).getLast? = some 64 := by
  have hrun : ((runFrom Session.step newSession (transcodedAhead 10)).any fun s =>
      (s.epochs 0).any fun epoch => decide (s.finalSegment epoch = 299) &&
        (s.getRoute2EpochManifestContent epoch).any fun lines =>
          decide (.endList ∈ lines ∧ (listedSegments lines).getLast? = some 64)) = true := by
    decide +kernel
  obtain ⟨s, hs, hany⟩ := (Option.any_eq_true _ _).1 hrun
  obtain ⟨epoch, hepoch, hboth⟩ := (Option.any_eq_true _ _).1 hany
  rw [Bool.and_eq_true] at hboth
  obtain ⟨lines, hlines, hset⟩ := (Option.any_eq_true _ _).1 hboth.2
  obtain ⟨hend, hlast⟩ := of_decide_eq_true hset
  exact ⟨s, hs, epoch, hepoch, of_decide_eq_true hboth.1, lines, hlines, hend, hlast⟩

end NativeHls
