/-
From the media element to the movie (`browserPlaybackTimeline.js`,
`playbackTimelineRanges.js`).

A player counts its time from the start of the manifest that is attached to it.
Positions are mapped to the movie by one function of the session payload, buffered
ranges by another.  The second one knows the sliding windows of native HLS, the first
does not, so that the two agree unless such a window has moved.

* `getBrowserPlaybackTimelineStartSeconds`, `getBrowserPlaybackAttachedManifestStartSeconds`
  -- the two offsets;
* `getContiguousClientBufferedAheadSeconds` -- how far the player can go on;
* `mediaElementAhead` -- the same, on the timeline of the media element alone;
* `one_timeline_iff` -- where the two are equal.
-/
import Mathlib.Tactic.Ring
import Elvern.TimelineRanges

open TimelineRanges

namespace TimelineMapping

/-- A value of a payload; any but `undefined` and `null` with its `Number(value)`, if that
is finite. -/
inductive JsValue where
  | undefined
  | null
  | value (number : Option ℚ)
  deriving DecidableEq

/-- `a ?? b` -/
def JsValue.orElse : JsValue → JsValue → JsValue
  | .undefined, b => b
  | .null, b => b
  | a, _ => a

/-- The fields of a session payload that the mapping reads. -/
structure Payload where
  engineMode : Option String
  selectedHlsEngine : Option String
  nativeHlsWindowPolicy : Option String
  activeWindowStartSeconds : JsValue
  activeWindowEndSeconds : JsValue
  readyStartSeconds : JsValue
  manifestStartSeconds : JsValue
  deriving DecidableEq

/-! ### The functions -/

def coerceFiniteNumber : JsValue → Option ℚ
  | .undefined => none
  | .null => some 0
  | .value number => number

def coerceNonNegativeNumber (value : JsValue) : ℚ :=
  match coerceFiniteNumber value with
  | none => 0
  | some numeric => if numeric ≤ 0 then 0 else numeric

section Session

variable (payload : Option Payload)

def isHlsSessionPayload : Bool := decide (payload.bind Payload.engineMode = some "route2")

/-- `getBrowserPlaybackActiveWindowSeconds`, with `hasActiveWindowFields` -/
def getBrowserPlaybackActiveWindowSeconds : Option (ℚ × ℚ) :=
  payload.bind fun payload =>
    match coerceFiniteNumber payload.activeWindowStartSeconds,
        coerceFiniteNumber payload.activeWindowEndSeconds with
    | some start, some stop =>
      if start < stop then some (max 0 start, max (max 0 start) stop) else none
    | _, _ => none

def isNativeHlsWindowPayload : Bool :=
  decide (payload.bind Payload.selectedHlsEngine = some "native_hls")
    || decide (payload.bind Payload.nativeHlsWindowPolicy = some "native_hls_sliding_window_v1")

def getBrowserPlaybackTimelineStartSeconds : ℚ :=
  if isHlsSessionPayload payload then
    coerceNonNegativeNumber (payload.elim (.value (some 0)) fun payload =>
      (payload.readyStartSeconds.orElse payload.manifestStartSeconds).orElse (.value (some 0)))
  else 0

def getBrowserPlaybackAttachedManifestStartSeconds : ℚ :=
  if isHlsSessionPayload payload then
    match isNativeHlsWindowPayload payload, getBrowserPlaybackActiveWindowSeconds payload with
    | true, some activeWindow => activeWindow.1
    | _, _ => getBrowserPlaybackTimelineStartSeconds payload
  else 0

def toBrowserPlaybackAbsoluteSeconds (mediaElementSeconds : ℚ) : ℚ :=
  let mediaElementTime := coerceNonNegativeNumber (.value (some mediaElementSeconds))
  if isHlsSessionPayload payload then
    getBrowserPlaybackTimelineStartSeconds payload + mediaElementTime
  else mediaElementTime

def rangesToAbsolute (mediaElementRanges : List Range) : List Range :=
  let offset := getBrowserPlaybackAttachedManifestStartSeconds payload
  if offset = 0 then mergeRanges mediaElementRanges
  else mergeRanges ((coerced mediaElementRanges).map fun range =>
    (range.1 + offset, range.2 + offset))

end Session

def normalizeTimeRanges (timeRanges : List Range) : List Range := mergeRanges (coerced timeRanges)

/-- `readBufferedAbsoluteRanges`, on the buffered ranges of the element. -/
def readBufferedAbsoluteRanges (videoElement : Option (List Range)) (payload : Option Payload) :
    List Range :=
  match videoElement with
  | none => []
  | some buffered => rangesToAbsolute payload (normalizeTimeRanges buffered)

def bufferPositionToleranceSeconds : ℚ := 1 / 4

/-- The test of the loop of `getContiguousBufferedEndFromPosition`. -/
def around (position : ℚ) (range : Range) : Bool :=
  decide (range.1 ≤ position + bufferPositionToleranceSeconds ∧ position ≤ range.2)

def getContiguousBufferedEndFromPosition (position : ℚ) (bufferedRanges : List Range) : ℚ :=
  if position < 0 then 0
  else
    match (mergeRanges bufferedRanges).find? (around position) with
    | some range => range.2
    | none => 0

def getContiguousClientBufferedAheadSeconds (videoElement : Option (List Range)) (target : ℚ)
    (sessionPayload : Option Payload) (targetIsMediaElementTime : Bool) : ℚ :=
  if videoElement = none ∨ target < 0 then 0
  else
    let absoluteTarget := if targetIsMediaElementTime then
      toBrowserPlaybackAbsoluteSeconds sessionPayload target else target
    let bufferedRanges := readBufferedAbsoluteRanges videoElement sessionPayload
    let contiguousEnd := getContiguousBufferedEndFromPosition absoluteTarget bufferedRanges
    if absoluteTarget < contiguousEnd then contiguousEnd - absoluteTarget else 0

/-! ### The timeline of the media element -/

/-- How far the player can go on from `t`: to the end of the buffered range around it. -/
def mediaElementAhead (buffered : List Range) (t : ℚ) : ℚ :=
  match (normalizeTimeRanges buffered).find? (around t) with
  | some range => max 0 (range.2 - t)
  | none => 0

/-- A native HLS session whose window does not start where its timeline does. -/
def MovedWindow (payload : Option Payload) : Prop :=
  isHlsSessionPayload payload = true ∧ isNativeHlsWindowPayload payload = true
    ∧ ∃ activeWindow, getBrowserPlaybackActiveWindowSeconds payload = some activeWindow
      ∧ activeWindow.1 ≠ getBrowserPlaybackTimelineStartSeconds payload

/-- Each end mapped as a position is. -/
def mapped (payload : Option Payload) (l : List Range) : List Range :=
  l.map fun range => (toBrowserPlaybackAbsoluteSeconds payload range.1,
    toBrowserPlaybackAbsoluteSeconds payload range.2)

section Mapping

variable {payload : Option Payload} {l : List Range} {offset t : ℚ}

theorem coerceNonNegativeNumber_nonneg (value : JsValue) : 0 ≤ coerceNonNegativeNumber value := by
  rw [coerceNonNegativeNumber]
  split
  · exact le_rfl
  · split_ifs with hle
    · exact le_rfl
    · exact (not_le.1 hle).le

theorem coerceNonNegativeNumber_of_nonneg (h : 0 ≤ t) :
    coerceNonNegativeNumber (.value (some t)) = t := by
  show (if t ≤ 0 then 0 else t) = t
  split_ifs with hle
  · exact le_antisymm h hle
  · rfl

theorem timelineStart_nonneg (payload : Option Payload) :
    0 ≤ getBrowserPlaybackTimelineStartSeconds payload := by
  rw [getBrowserPlaybackTimelineStartSeconds]
  split_ifs
  · exact coerceNonNegativeNumber_nonneg _
  · exact le_rfl

theorem toAbsolute_of_nonneg (payload : Option Payload) (h : 0 ≤ t) :
    toBrowserPlaybackAbsoluteSeconds payload t =
        getBrowserPlaybackTimelineStartSeconds payload + t := by
  rw [toBrowserPlaybackAbsoluteSeconds, coerceNonNegativeNumber_of_nonneg h]
  split_ifs with hls
  · rfl
  · rw [getBrowserPlaybackTimelineStartSeconds, if_neg hls, zero_add]

/-- The offset of the ranges, where no window has moved. -/
theorem attachedStart_of_not_moved (h : ¬ MovedWindow payload) :
    getBrowserPlaybackAttachedManifestStartSeconds payload
      = getBrowserPlaybackTimelineStartSeconds payload := by
  rw [getBrowserPlaybackAttachedManifestStartSeconds]
  split_ifs with hls
  · split
    · next activeWindow hnative hwindow =>
      by_contra hne
      exact h ⟨hls, hnative, activeWindow, hwindow, hne⟩
    · rfl
  · rw [getBrowserPlaybackTimelineStartSeconds, if_neg hls]

/-- Shifting a canonical list. -/
theorem canonical_shift (h : Canonical l) (hoffset : 0 ≤ offset) :
    Canonical (l.map fun range => (range.1 + offset, range.2 + offset)) where
  proper := by
    intro q hq
    obtain ⟨r, hr, rfl⟩ := List.mem_map.1 hq
    obtain ⟨hfirst, hlt⟩ := h.proper r hr
    exact ⟨add_nonneg hfirst hoffset, add_lt_add_left hlt offset⟩
  apart := by
    refine List.pairwise_map.2 (h.apart.imp fun hab => ?_)
    dsimp only
    linarith

theorem rangesToAbsolute_of_canonical (payload : Option Payload) (h : Canonical l)
    (hoffset : 0 ≤ getBrowserPlaybackAttachedManifestStartSeconds payload) :
    rangesToAbsolute payload l = l.map fun range =>
      (range.1 + getBrowserPlaybackAttachedManifestStartSeconds payload,
        range.2 + getBrowserPlaybackAttachedManifestStartSeconds payload) := by
  rw [rangesToAbsolute]
  split_ifs with hzero
  · rw [mergeRanges_of_canonical h, hzero]
    simp only [add_zero, Prod.mk.eta, List.map_id']
  · rw [coerced_of_proper h.proper]
    exact mergeRanges_of_canonical (canonical_shift h hoffset)

/-- What the player reports is canonical once it is read: a range that ends before the
timeline begins is dropped when it is coerced again. -/
theorem canonical_normalizeTimeRanges (buffered : List Range) :
    Canonical (normalizeTimeRanges buffered) := by
  refine (mergeRanges_spec fun e he hlt => ?_).1
  obtain ⟨entry, -, -, rfl⟩ := mem_coerced.1 he
  exact (le_max_left 0 entry.1).trans_lt hlt

theorem mapped_eq (payload : Option Payload) (h : Canonical l) :
    mapped payload l = l.map fun range => (range.1 + getBrowserPlaybackTimelineStartSeconds payload,
      range.2 + getBrowserPlaybackTimelineStartSeconds payload) := by
  refine List.map_congr_left fun r hr => ?_
  obtain ⟨hfirst, hlt⟩ := h.proper r hr
  rw [toAbsolute_of_nonneg payload hfirst, toAbsolute_of_nonneg payload (hfirst.trans hlt.le),
    add_comm r.1, add_comm r.2]

/-- Where both offsets are the same, the ranges are mapped as positions are. -/
theorem rangesToAbsolute_eq_mapped (h : Canonical l) (hmoved : ¬ MovedWindow payload) :
    rangesToAbsolute payload l = mapped payload l := by
  have hsame := attachedStart_of_not_moved hmoved
  rw [rangesToAbsolute_of_canonical payload h (hsame ▸ timelineStart_nonneg payload), hsame,
    mapped_eq payload h]

/-- A position that is mapped lies in a mapped range as it lay before. -/
theorem around_shift (range : Range) :
    around (offset + t) (range.1 + offset, range.2 + offset) = around t range := by
  rw [around, around]
  refine decide_eq_decide.2 (and_congr ?_ ?_)
  · constructor
    · intro h
      linarith
    · intro h
      linarith
  · constructor
    · intro h
      linarith
    · intro h
      linarith

/-- How far the player can go on, by the ranges that are mapped to the movie. -/
theorem ahead_eq (payload : Option Payload) {buffered mediaRanges : List Range} (ht : 0 ≤ t)
    (hranges : rangesToAbsolute payload (normalizeTimeRanges buffered) = mediaRanges)
    (hcanonical : Canonical mediaRanges) :
    getContiguousClientBufferedAheadSeconds (some buffered) t payload true
      = match mediaRanges.find? (around (getBrowserPlaybackTimelineStartSeconds payload + t)) with
        | some range => max 0 (range.2 - (getBrowserPlaybackTimelineStartSeconds payload + t))
        | none => 0 := by
  have hposition : 0 ≤ getBrowserPlaybackTimelineStartSeconds payload + t :=
    add_nonneg (timelineStart_nonneg payload) ht
  have hread : readBufferedAbsoluteRanges (some buffered) payload = mediaRanges := hranges
  simp only [getContiguousClientBufferedAheadSeconds, reduceCtorEq, false_or, if_neg (not_lt.2 ht),
    if_true, hread, toAbsolute_of_nonneg payload ht, getContiguousBufferedEndFromPosition,
    if_neg (not_lt.2 hposition), mergeRanges_of_canonical hcanonical]
  cases mediaRanges.find? (around (getBrowserPlaybackTimelineStartSeconds payload + t)) with
  | none => exact if_neg (not_lt.2 hposition)
  | some range =>
    dsimp only
    split_ifs with hlt
    · rw [max_eq_right (sub_pos.2 hlt).le]
    · rw [max_eq_left (sub_nonpos.2 (not_lt.1 hlt))]

/-- Without a moved window, the payload does not count. -/
theorem ahead_of_not_moved (h : ¬ MovedWindow payload) (buffered : List Range) (ht : 0 ≤ t) :
    getContiguousClientBufferedAheadSeconds (some buffered) t payload true
      = mediaElementAhead buffered t := by
  have hcanonical := canonical_normalizeTimeRanges buffered
  have hranges := rangesToAbsolute_eq_mapped hcanonical h
  rw [mapped_eq payload hcanonical] at hranges
  have hpredicate : around (getBrowserPlaybackTimelineStartSeconds payload + t)
      ∘ (fun range : Range => (range.1 + getBrowserPlaybackTimelineStartSeconds payload,
        range.2 + getBrowserPlaybackTimelineStartSeconds payload)) = around t :=
    funext fun range => around_shift range
  rw [ahead_eq payload ht hranges (canonical_shift hcanonical (timelineStart_nonneg payload)),
    List.find?_map, hpredicate, mediaElementAhead]
  cases (normalizeTimeRanges buffered).find? (around t) with
  | none => rfl
  | some range =>
    dsimp only [Option.map_some]
    congr 1
    ring

/-- Where the window has moved, a player that has buffered one second from its start on is
told something else. -/
theorem ahead_of_moved (h : MovedWindow payload) :
    getContiguousClientBufferedAheadSeconds (some [(0, 1)]) 0 payload true
        ≠ mediaElementAhead [(0, 1)] 0
      ∧ rangesToAbsolute payload [(0, 1)] ≠ mapped payload [(0, 1)] := by
  obtain ⟨hls, hnative, activeWindow, hwindow, hne⟩ := h
  have hstart := timelineStart_nonneg payload
  have hattached : getBrowserPlaybackAttachedManifestStartSeconds payload = activeWindow.1 := by
    rw [getBrowserPlaybackAttachedManifestStartSeconds, if_pos hls, hnative, hwindow]
  have hnonneg : 0 ≤ activeWindow.1 := by
    obtain ⟨payload, -, hfields⟩ := Option.bind_eq_some_iff.1 hwindow
    split at hfields
    · split_ifs at hfields
      cases hfields
      exact le_max_left _ _
    · cases hfields
  have hcanonical : Canonical [(0, 1)] := by
    refine ⟨fun r hr => ?_, List.pairwise_singleton _ _⟩
    rw [List.mem_singleton.1 hr]
    norm_num
  have hnormalized : normalizeTimeRanges [(0, 1)] = [(0, 1)] := by
    rw [normalizeTimeRanges, coerced_of_proper hcanonical.proper,
      mergeRanges_of_canonical hcanonical]
  have hranges : rangesToAbsolute payload [(0, 1)] = [(activeWindow.1, 1 + activeWindow.1)] := by
    rw [rangesToAbsolute_of_canonical payload hcanonical (hattached ▸ hnonneg), hattached]
    simp only [List.map_cons, List.map_nil, zero_add]
  constructor
  · have hlocal : mediaElementAhead [(0, 1)] 0 = 1 := by
      rw [mediaElementAhead, hnormalized]
      norm_num [around, bufferPositionToleranceSeconds]
    have hwindowCanonical : Canonical [(activeWindow.1, 1 + activeWindow.1)] := by
      refine ⟨fun r hr => ?_, List.pairwise_singleton _ _⟩
      rw [List.mem_singleton.1 hr]
      exact ⟨hnonneg, by dsimp only; linarith⟩
    rw [hlocal, ahead_eq payload le_rfl (hnormalized.symm ▸ hranges) hwindowCanonical, add_zero]
    cases hfind : [(activeWindow.1, 1 + activeWindow.1)].find?
        (around (getBrowserPlaybackTimelineStartSeconds payload)) with
    | none =>
      norm_num
    | some range =>
      obtain rfl := List.mem_singleton.1 (List.mem_of_find?_eq_some hfind)
      dsimp only
      intro heq
      rcases max_choice 0 (1 + activeWindow.1 - getBrowserPlaybackTimelineStartSeconds payload) with
        hmax | hmax
      · rw [hmax] at heq
        norm_num at heq
      · rw [hmax] at heq
        exact hne (by linarith)
  · rw [hranges, mapped_eq payload hcanonical]
    intro heq
    have hfirst := (Prod.mk.inj (List.cons.inj heq).1).1
    exact hne (by linarith)

end Mapping

/-- **One timeline.**  The buffered time ahead of a media-element position is that of the
media element alone, for all ranges and positions, if and only if the payload is not that of
a native HLS session whose window has moved; and so are the ranges mapped as positions. -/
theorem one_timeline_iff (payload : Option Payload) :
    ((∀ buffered : List Range, (∀ e ∈ buffered, 0 ≤ e.2) → ∀ t, 0 ≤ t →
        getContiguousClientBufferedAheadSeconds (some buffered) t payload true
          = mediaElementAhead buffered t)
      ↔ ¬ MovedWindow payload)
    ∧ ((∀ l, Canonical l → rangesToAbsolute payload l = mapped payload l)
      ↔ ¬ MovedWindow payload) := by
  refine ⟨⟨fun hall hmoved => ?_, fun h buffered _ t ht => ahead_of_not_moved h buffered ht⟩,
    ⟨fun hall hmoved => ?_, fun h l hl => rangesToAbsolute_eq_mapped hl h⟩⟩
  · refine (ahead_of_moved hmoved).1 (hall [(0, 1)] (fun e he => ?_) 0 le_rfl)
    rw [List.mem_singleton.1 he]
    norm_num
  · refine (ahead_of_moved hmoved).2 (hall [(0, 1)] ⟨fun r hr => ?_, List.pairwise_singleton _ _⟩)
    rw [List.mem_singleton.1 hr]
    norm_num

/-- A native HLS session whose timeline starts at 0 and whose window at 180. -/
def slidWindow : Payload where
  engineMode := some "route2"
  selectedHlsEngine := some "native_hls"
  nativeHlsWindowPolicy := none
  activeWindowStartSeconds := .value (some 180)
  activeWindowEndSeconds := .value (some 240)
  readyStartSeconds := .value (some 0)
  manifestStartSeconds := .undefined

/-- The player has 25 seconds ahead of it, and is told that it has none. -/
theorem slidWindow_ahead :
    getContiguousClientBufferedAheadSeconds (some [(0, 30)]) 5 (some slidWindow) true = 0
      ∧ mediaElementAhead [(0, 30)] 5 = 25 := by
  have hcanonical : ∀ a b : ℚ, 0 ≤ a → a < b → Canonical [(a, b)] := by
    intro a b ha hab
    refine ⟨fun r hr => ?_, List.pairwise_singleton _ _⟩
    rw [List.mem_singleton.1 hr]
    exact ⟨ha, hab⟩
  have hbuffered := hcanonical 0 30 (by norm_num) (by norm_num)
  have hnormalized : normalizeTimeRanges [(0, 30)] = [(0, 30)] := by
    rw [normalizeTimeRanges, coerced_of_proper hbuffered.proper, mergeRanges_of_canonical hbuffered]
  have hattached : getBrowserPlaybackAttachedManifestStartSeconds (some slidWindow) = 180 := by
    decide +kernel
  have hstart : getBrowserPlaybackTimelineStartSeconds (some slidWindow) = 0 := by decide +kernel
  have hranges : rangesToAbsolute (some slidWindow) (normalizeTimeRanges [(0, 30)])
      = [(180, 210)] := by
    rw [hnormalized, rangesToAbsolute_of_canonical _ hbuffered (by
      rw [hattached]
      norm_num), hattached]
    norm_num
  constructor
  · rw [ahead_eq _ (by norm_num) hranges (hcanonical 180 210 (by norm_num) (by norm_num)), hstart]
    norm_num [around, bufferPositionToleranceSeconds]
  · rw [mediaElementAhead, hnormalized]
    norm_num [around, bufferPositionToleranceSeconds]

end TimelineMapping
