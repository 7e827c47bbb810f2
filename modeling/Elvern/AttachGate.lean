/-
The attach gate of a playback epoch (`mobile_playback_route2_gates.py`).

A client is attached once the media published ahead of it covers a required
runway: a floor, or what a supply slower than real time will use up by the end
of a horizon.  When the gate says no, it may say how long the missing segments
will take.  Seconds and rates are exact rationals.

* `requiredRunwaySeconds`, `attachGateState` -- the functions;
* `runway_of_ready` -- a runway that starts and ends high enough stays so;
* `grown_of_estimate` -- the estimate is long enough for the gate to open;
* `attach_gate_runway` -- both.
-/
import Mathlib.Data.Rat.Floor
import Mathlib.Tactic.Linarith

namespace AttachGate

/-- The fields of a `MobilePlaybackSession` that the gate reads. -/
structure Session where
  durationSeconds : ℚ
  targetPositionSeconds : ℚ
  lastStablePositionSeconds : ℚ
  committedPlayheadSeconds : ℚ
  actualMediaElementTimeSeconds : ℚ

/-- The fields of a `PlaybackEpoch` that the gate reads. -/
structure Epoch where
  initPublished : Bool
  contiguousPublishedThroughSegment : Option ℕ
  epochStartSeconds : ℚ
  attachPositionSeconds : ℚ
  transcoderCompleted : Bool

/-- The entries of the supply model that the gate reads. -/
structure SupplyModel where
  effectiveRateX : ℚ
  observationSeconds : ℚ
  displayConfident : Bool

/-- What the gate returns. -/
structure GateState where
  ready : Bool
  estimateSeconds : Option ℚ
  supplyRateX : ℚ
  observationSeconds : ℚ
  projectedRunwaySeconds : ℚ
  displayConfident : Bool

/-- `SEGMENT_DURATION_SECONDS` -/
def segmentDurationSeconds : ℚ := 2

/-- `ROUTE2_SUPPLY_RATE_MIN_SAMPLE_SECONDS` -/
def supplyRateMinSampleSeconds : ℚ := 6

/-- `_clamp_time` -/
def clampTime (positionSeconds durationSeconds : ℚ) : ℚ :=
  let clamped := max 0 positionSeconds
  if durationSeconds ≤ 0 then clamped else min clamped (max (durationSeconds - 1) 0)

/-- `_route2_epoch_ready_end_seconds`, which is also the published end. -/
def epochReadyEndSeconds (session : Session) (epoch : Epoch) : ℚ :=
  match epoch.contiguousPublishedThroughSegment with
  | some segment =>
    if epoch.initPublished then
      min session.durationSeconds
        (epoch.epochStartSeconds + ((segment : ℚ) + 1) * segmentDurationSeconds)
    else 0
  | none => 0

/-- `_route2_effective_playhead_seconds_locked` -/
def effectivePlayheadSeconds (session : Session) (epoch : Epoch) : ℚ :=
  clampTime
    (max (max (max (max epoch.attachPositionSeconds session.targetPositionSeconds)
      session.lastStablePositionSeconds) session.committedPlayheadSeconds)
      session.actualMediaElementTimeSeconds)
    session.durationSeconds

/-- `manifest_complete` -/
def manifestComplete (session : Session) (epoch : Epoch) : Bool :=
  decide (session.durationSeconds ≤ epochReadyEndSeconds session epoch + 1 / 1000)
    || epoch.transcoderCompleted

/-- `_route2_projected_runway_seconds_locked`, at a demand of 1. -/
def projectedRunwaySeconds (runwaySeconds supplyRateX projectionHorizonSeconds : ℚ) : ℚ :=
  max 0 (runwaySeconds + (supplyRateX - 1) * projectionHorizonSeconds)

/-- The arguments of the gate. -/
structure Request where
  minimumRunwaySeconds : ℚ
  projectedRunwayTargetSeconds : ℚ
  projectionHorizonSeconds : ℚ
  referencePositionSeconds : Option ℚ

/-- `_route2_required_runway_seconds_locked` -/
def requiredRunwaySeconds (request : Request) (supplyRateX : ℚ) : ℚ :=
  let projectedRequirementSeconds := max 0
    (request.projectedRunwayTargetSeconds - (supplyRateX - 1) * request.projectionHorizonSeconds)
  max request.minimumRunwaySeconds projectedRequirementSeconds

/-- The reference position, in the bounds of the media. -/
def referencePosition (session : Session) (epoch : Epoch) (request : Request) : ℚ :=
  clampTime (request.referencePositionSeconds.getD (effectivePlayheadSeconds session epoch))
    session.durationSeconds

/-- `quantized_published_end_deficit_seconds`: whole segments. -/
def quantizedDeficit (deficitSeconds : ℚ) : ℚ :=
  if 1 / 1000 < deficitSeconds then
    (⌈deficitSeconds / segmentDurationSeconds⌉ : ℚ) * segmentDurationSeconds
  else 0

/-- `_route2_attach_gate_state_locked` -/
def attachGateState (session : Session) (epoch : Epoch) (supply : SupplyModel)
    (request : Request) : GateState :=
  if !epoch.initPublished || epoch.contiguousPublishedThroughSegment.isNone then
    ⟨false, none, 0, 0, 0, false⟩
  else
    let publishedEnd := epochReadyEndSeconds session epoch
    let rate := supply.effectiveRateX
    let observed := supply.observationSeconds
    let reference := referencePosition session epoch request
    let runway := max 0 (publishedEnd - reference)
    let projected := projectedRunwaySeconds runway rate request.projectionHorizonSeconds
    if ¬ (epoch.epochStartSeconds ≤ reference ∧ reference ≤ publishedEnd + 1 / 1000) then
      ⟨false, none, rate, observed, projected, supply.displayConfident⟩
    else if manifestComplete session epoch then ⟨true, some 0, rate, observed, projected, true⟩
    else
      let required := requiredRunwaySeconds request rate
      if supplyRateMinSampleSeconds ≤ observed ∧ required ≤ runway + 1 / 1000 then
        ⟨true, some 0, rate, observed, projected, true⟩
      else if observed < supplyRateMinSampleSeconds ∨ rate ≤ 1 / 1000 then
        ⟨false, none, rate, observed, projected, false⟩
      else
        let observationDeficit := max 0 (supplyRateMinSampleSeconds - observed)
        let publishedEndDeficit :=
          max 0 (min session.durationSeconds (reference + required) - publishedEnd)
        ⟨false, some (max observationDeficit (quantizedDeficit publishedEndDeficit / rate)),
          rate, observed, projected, supply.displayConfident⟩

/-! ### Runways -/

section Runways

variable {low start rate horizon t : ℚ}

/-- A runway that is high enough at both ends of the horizon is high enough in
between. -/
theorem runway_between (hstart : low ≤ start) (hend : low ≤ start + (rate - 1) * horizon)
    (ht : 0 ≤ t) (hlast : t ≤ horizon) : low ≤ start + (rate - 1) * t := by
  by_cases hrate : 1 ≤ rate
  · have hgrowth : 0 ≤ (rate - 1) * t := mul_nonneg (by linarith) ht
    linarith
  · -- below real time the runway shrinks, and is lowest at the end
    have hshrink : (1 - rate) * t ≤ (1 - rate) * horizon :=
      mul_le_mul_of_nonneg_left hlast (by linarith)
    linarith

variable {request : Request} {publishedEnd reference : ℚ}

/-- What the condition of the gate promises about the runway. -/
theorem runway_of_ready (hreference : reference ≤ publishedEnd + 1 / 1000)
    (hready : requiredRunwaySeconds request rate ≤ max 0 (publishedEnd - reference) + 1 / 1000)
    (ht : 0 ≤ t) (hlast : t ≤ request.projectionHorizonSeconds) :
    min request.minimumRunwaySeconds request.projectedRunwayTargetSeconds
        - (if reference ≤ publishedEnd then 1 / 1000 else 2 / 1000)
      ≤ publishedEnd - reference + (rate - 1) * t := by
  have hminimum : request.minimumRunwaySeconds ≤ requiredRunwaySeconds request rate :=
    le_max_left _ _
  have hprojected : request.projectedRunwayTargetSeconds
      - (rate - 1) * request.projectionHorizonSeconds ≤ requiredRunwaySeconds request rate :=
    (le_max_right _ _).trans (le_max_right _ _)
  -- the required runway, less the tolerances that apply
  have hrunway : requiredRunwaySeconds request rate
      - (if reference ≤ publishedEnd then 1 / 1000 else 2 / 1000) ≤ publishedEnd - reference := by
    split_ifs with hbehind
    · rw [max_eq_right (by linarith)] at hready
      linarith
    · rw [max_eq_left (by linarith)] at hready
      linarith
  apply runway_between _ _ ht hlast
  · have hle := min_le_left request.minimumRunwaySeconds request.projectedRunwayTargetSeconds
    linarith
  · have hle := min_le_right request.minimumRunwaySeconds request.projectedRunwayTargetSeconds
    linarith

theorem le_quantizedDeficit {deficit : ℚ} (h : 1 / 1000 < deficit) :
    deficit ≤ quantizedDeficit deficit := by
  rw [quantizedDeficit, if_pos h, segmentDurationSeconds]
  have hceil := Int.le_ceil (deficit / 2)
  linarith

/-- The estimate is long enough: after it, the gate is open or the media ends. -/
theorem grown_of_estimate {duration required deficit : ℚ} (hrate : 0 < rate)
    (hshort : max 0 (publishedEnd - reference) + 1 / 1000 < required)
    (hincomplete : publishedEnd + 1 / 1000 < duration)
    (hdeficit : deficit = max 0 (min duration (reference + required) - publishedEnd)) :
    required ≤ max 0 (publishedEnd + rate * (quantizedDeficit deficit / rate) -
      reference) + 1 / 1000
      ∨ duration ≤ publishedEnd + rate * (quantizedDeficit deficit / rate) := by
  have hcancel : rate * (quantizedDeficit deficit / rate) = quantizedDeficit deficit :=
    mul_div_cancel₀ _ hrate.ne'
  have hrunway : publishedEnd - reference ≤ max 0 (publishedEnd - reference) := le_max_right _ _
  -- the deficit is more than the tolerance, since neither condition is met yet
  have hmissing : 1 / 1000 < min duration (reference + required) - publishedEnd := by
    have hlt : publishedEnd + 1 / 1000 < min duration (reference + required) :=
      lt_min hincomplete (by linarith)
    linarith
  have hvalue : deficit = min duration (reference + required) - publishedEnd := by
    rw [hdeficit]
    exact max_eq_right (by linarith)
  have hgrown : deficit ≤ quantizedDeficit deficit := le_quantizedDeficit (by rwa [hvalue])
  rw [hcancel]
  obtain hmin | hmin := min_choice duration (reference + required)
  · right
    rw [hmin] at hvalue
    linarith
  · left
    rw [hmin] at hvalue
    have hafter : publishedEnd + quantizedDeficit deficit - reference
        ≤ max 0 (publishedEnd + quantizedDeficit deficit - reference) := le_max_right _ _
    linarith

end Runways

/-- `published_end_deficit_seconds` -/
def publishedEndDeficit (session : Session) (epoch : Epoch) (supply : SupplyModel)
    (request : Request) : ℚ :=
  max 0 (min session.durationSeconds (referencePosition session epoch request
    + requiredRunwaySeconds request supply.effectiveRateX) - epochReadyEndSeconds session epoch)

/-- The ways in which the gate returns: without an estimate, for a complete
manifest, with runway enough, and with an estimate. -/
theorem attachGateState_cases (session : Session) (epoch : Epoch) (supply : SupplyModel)
    (request : Request) :
    ((attachGateState session epoch supply request).ready = false
        ∧ (attachGateState session epoch supply request).estimateSeconds = none)
      ∨ ((attachGateState session epoch supply request).ready = true
        ∧ manifestComplete session epoch = true)
      ∨ ((attachGateState session epoch supply request).ready = true
        ∧ epoch.epochStartSeconds ≤ referencePosition session epoch request
        ∧ referencePosition session epoch request ≤ epochReadyEndSeconds session epoch + 1 / 1000
        ∧ requiredRunwaySeconds request supply.effectiveRateX ≤
          max 0 (epochReadyEndSeconds session epoch - referencePosition session epoch request)
            + 1 / 1000)
      ∨ ((attachGateState session epoch supply request).ready = false
        ∧ supplyRateMinSampleSeconds ≤ supply.observationSeconds
        ∧ 1 / 1000 < supply.effectiveRateX
        ∧ manifestComplete session epoch = false
        ∧ max 0 (epochReadyEndSeconds session epoch - referencePosition session epoch request)
            + 1 / 1000 < requiredRunwaySeconds request supply.effectiveRateX
        ∧ (attachGateState session epoch supply request).estimateSeconds =
          some (max (max 0 (supplyRateMinSampleSeconds - supply.observationSeconds))
            (quantizedDeficit (publishedEndDeficit session epoch supply request)
              / supply.effectiveRateX))) := by
  simp only [attachGateState]
  by_cases hpublished : (!epoch.initPublished
      || epoch.contiguousPublishedThroughSegment.isNone) = true
  · rw [if_pos hpublished]
    exact Or.inl ⟨rfl, rfl⟩
  rw [if_neg hpublished]
  by_cases hinside : epoch.epochStartSeconds ≤ referencePosition session epoch request
      ∧ referencePosition session epoch request ≤ epochReadyEndSeconds session epoch + 1 / 1000
  · rw [if_neg (not_not.2 hinside)]
    by_cases hcomplete : manifestComplete session epoch = true
    · rw [if_pos hcomplete]
      exact Or.inr (Or.inl ⟨rfl, hcomplete⟩)
    rw [if_neg hcomplete]
    by_cases hready : supplyRateMinSampleSeconds ≤ supply.observationSeconds
        ∧ requiredRunwaySeconds request supply.effectiveRateX ≤
          max 0 (epochReadyEndSeconds session epoch - referencePosition session epoch request)
            + 1 / 1000
    · rw [if_pos hready]
      exact Or.inr (Or.inr (Or.inl ⟨rfl, hinside.1, hinside.2, hready.2⟩))
    rw [if_neg hready]
    by_cases hunknown : supply.observationSeconds < supplyRateMinSampleSeconds
        ∨ supply.effectiveRateX ≤ 1 / 1000
    · rw [if_pos hunknown]
      exact Or.inl ⟨rfl, rfl⟩
    rw [if_neg hunknown]
    obtain ⟨hobserved, hrate⟩ := not_or.1 hunknown
    rw [not_lt] at hobserved
    rw [not_le] at hrate
    exact Or.inr (Or.inr (Or.inr ⟨rfl, hobserved, hrate, Bool.not_eq_true _ ▸ hcomplete,
      not_le.1 fun hle => hready ⟨hobserved, hle⟩, rfl⟩))
  · rw [if_pos hinside]
    exact Or.inl ⟨rfl, rfl⟩

theorem quantizedDeficit_nonneg {deficit : ℚ} : 0 ≤ quantizedDeficit deficit := by
  by_cases h : 1 / 1000 < deficit
  · exact le_trans (by linarith) (le_quantizedDeficit h)
  · rw [quantizedDeficit, if_neg h]

/-- **The attach gate.**  When it opens before the manifest is complete, the
runway of a client that plays on from the reference stays above the smaller of
the floor and the target for the whole horizon, but for the tolerances: one,
and a second one where the reference lies past the published end.  When it stays
closed with an estimate, the growth of that time opens it or ends the media. -/
theorem attach_gate_runway (session : Session) (epoch : Epoch) (supply : SupplyModel)
    (request : Request) :
    ((attachGateState session epoch supply request).ready = true →
      manifestComplete session epoch = false →
      epoch.epochStartSeconds ≤ referencePosition session epoch request
        ∧ referencePosition session epoch request ≤ epochReadyEndSeconds session epoch + 1 / 1000
        ∧ ∀ t, 0 ≤ t → t ≤ request.projectionHorizonSeconds →
          min request.minimumRunwaySeconds request.projectedRunwayTargetSeconds
              - (if referencePosition session epoch request ≤ epochReadyEndSeconds session epoch
                then 1 / 1000 else 2 / 1000)
            ≤ epochReadyEndSeconds session epoch - referencePosition session epoch request
              + (supply.effectiveRateX - 1) * t)
    ∧ ∀ estimate, (attachGateState session epoch supply request).ready = false →
      (attachGateState session epoch supply request).estimateSeconds = some estimate →
      requiredRunwaySeconds request supply.effectiveRateX
          ≤ max 0 (epochReadyEndSeconds session epoch + supply.effectiveRateX * estimate
            - referencePosition session epoch request) + 1 / 1000
        ∨ session.durationSeconds
          ≤ epochReadyEndSeconds session epoch + supply.effectiveRateX * estimate := by
  obtain ⟨hready, hnone⟩ | ⟨hready, hcomplete⟩ | ⟨hready, hstart, hend, hrunway⟩ |
      ⟨hready, hobserved, hrate, hincomplete, hshort, hestimate⟩ :=
    attachGateState_cases session epoch supply request
  · rw [hready, hnone]
    exact ⟨fun h => (by cases h), fun estimate _ h => (by cases h)⟩
  · rw [hready, hcomplete]
    exact ⟨fun _ h => (by cases h), fun estimate h => (by cases h)⟩
  · rw [hready]
    refine ⟨fun _ _ => ⟨hstart, hend, fun t ht hlast => ?_⟩, fun estimate h => (by cases h)⟩
    exact runway_of_ready hend hrunway ht hlast
  · rw [hready, hestimate]
    refine ⟨fun h => (by cases h), fun estimate _ h => ?_⟩
    obtain rfl := Option.some.inj h
    have hbefore : epochReadyEndSeconds session epoch + 1 / 1000 < session.durationSeconds := by
      rw [manifestComplete, Bool.or_eq_false_iff, decide_eq_false_iff_not, not_le] at hincomplete
      exact hincomplete.1
    have hpos : 0 < supply.effectiveRateX := by linarith
    -- the sample is long enough, so the estimate is that of the segments
    have hzero : max 0 (supplyRateMinSampleSeconds - supply.observationSeconds) = 0 :=
      max_eq_left (by linarith)
    rw [hzero, max_eq_right (div_nonneg quantizedDeficit_nonneg hpos.le)]
    exact grown_of_estimate hpos hshort hbefore rfl

/-- A session at the very end of what is published. -/
def hundredSeconds : Session := ⟨100, 0, 0, 0, 0⟩

def fiveSegments : Epoch := ⟨true, some 4, 0, 0, false⟩

/-- Both tolerances are used up when the reference lies past the published end:
the gate opens on a floor of 0.001, and the runway is 0.002 below it. -/
theorem attach_gate_two_tolerances :
    (attachGateState hundredSeconds fiveSegments ⟨2, 10, true⟩
        ⟨1 / 1000, 45, 90, some (10001 / 1000)⟩).ready = true
      ∧ manifestComplete hundredSeconds fiveSegments = false
      ∧ ¬ min (1 / 1000) 45 - 1 / 1000 ≤
        epochReadyEndSeconds hundredSeconds fiveSegments - 10001 / 1000 + (2 - 1) * 0 := by
  decide +kernel

end AttachGate
