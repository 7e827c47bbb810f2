/-
The lite threshold decider (`mobile_playback_route2_gates.py`).

Every snapshot of a session asks how much runway a player needs before it
starts: 15 seconds where the supply has been seen to be fast for long enough,
180 where it has been seen to be slow, 45 otherwise.  The decider reads the
frontier samples of the epoch and keeps its evidence in the browser session.
Seconds and rates are exact rationals.

* `frontierEvidence` -- what the samples say on their own;
* `refresh` -- the evidence seconds and the holds after a call;
* `verdict` -- the tier that a call decides;
* `liteThresholdDecider`, `liteInitialStartupGate` -- the functions.
-/
import Elvern.AttachGate
import Elvern.PyText

namespace LiteDecider

/-! ### Constants -/

/-- `ROUTE2_SUPPLY_SURPLUS_MIN_RATE_X` -/
def supplySurplusMinRateX : ℚ := 21 / 20

/-- `ROUTE2_SUPPLY_RATE_FAST_EMA_ALPHA` -/
def supplyRateFastEmaAlpha : ℚ := 11 / 20

/-- `ROUTE2_SUPPLY_RATE_SLOW_EMA_ALPHA` -/
def supplyRateSlowEmaAlpha : ℚ := 1 / 4

/-- `ROUTE2_LITE_DECIDER_FAST_CONFIRM_SECONDS` -/
def fastConfirmSeconds : ℚ := 15

/-- `ROUTE2_LITE_DECIDER_UNDERSUPPLY_CONFIRM_SECONDS` -/
def undersupplyConfirmSeconds : ℚ := 25

/-- `ROUTE2_LITE_DECIDER_COLD_START_GRACE_SECONDS` -/
def coldStartGraceSeconds : ℚ := 20

/-- `ROUTE2_LITE_DECIDER_POST_RECOVERY_HOLD_SECONDS` -/
def postRecoveryHoldSeconds : ℚ := 30

/-- `ROUTE2_LITE_DECIDER_POST_SEEK_HOLD_SECONDS` -/
def postSeekHoldSeconds : ℚ := 15

/-- `ROUTE2_LITE_DECIDER_MIN_FRONTIER_SAMPLE_COUNT` -/
def minFrontierSampleCount : ℕ := 6

/-- `ROUTE2_LITE_FAST_START_RUNWAY_SECONDS` -/
def fastStartRunwaySeconds : ℚ := 15

/-- `ROUTE2_LITE_SLOW_START_RUNWAY_SECONDS` -/
def slowStartRunwaySeconds : ℚ := 45

/-- `ROUTE2_LITE_UNDERSUPPLY_START_RUNWAY_SECONDS` -/
def undersupplyStartRunwaySeconds : ℚ := 180

/-! ### What the samples say -/

/-- The fields of a `PlaybackEpoch` that are read here. -/
structure Epoch extends AttachGate.Epoch where
  frontierSamples : List (ℚ × ℚ)

/-- `_ema_rate` -/
def emaRate (alpha : ℚ) : List ℚ → ℚ
  | [] => 0
  | first :: rest =>
    rest.foldl (fun current value => alpha * max 0 value + (1 - alpha) * current) (max 0 first)

/-- `_ema_locked` -/
def emaLocked (alpha : ℚ) : List ℚ → ℚ
  | [] => 0
  | first :: rest =>
    max 0 (rest.foldl (fun current value => alpha * value + (1 - alpha) * current) first)

/-- `statistics.median` of a list that is not empty. -/
def median (values : List ℚ) : ℚ :=
  let sorted := values.mergeSort
  let half := sorted.length / 2
  if sorted.length % 2 = 1 then sorted.getD half 0
  else (sorted.getD (half - 1) 0 + sorted.getD half 0) / 2

/-- The seconds and the growth of each interval of at least a quarter second. -/
def intervals (history : List (ℚ × ℚ)) : List (ℚ × ℚ) :=
  (history.zip history.tail).filterMap fun (previous, current) =>
    let intervalSeconds := max 0 (current.1 - previous.1)
    let growthSeconds := max 0 (current.2 - previous.2)
    if intervalSeconds < 1 / 4 then none else some (intervalSeconds, growthSeconds)

/-- `interval_pairs`: the seconds and the rate of each interval. -/
def intervalPairs (history : List (ℚ × ℚ)) : List (ℚ × ℚ) :=
  (intervals history).map fun (seconds, growth) => (seconds, growth / seconds)

/-- `interval_rates`: the rates of the intervals with growth. -/
def intervalRates (history : List (ℚ × ℚ)) : List ℚ :=
  ((intervals history).filter fun (_, growth) => 1 / 1000 < growth).map
    fun (seconds, growth) => growth / seconds

/-- The time from the first sample to the last. -/
def observationSeconds (history : List (ℚ × ℚ)) : ℚ :=
  match history.head?, history.getLast? with
  | some first, some last => max 0 (last.1 - first.1)
  | _, _ => 0

/-- `frontier_growth_rate_x`, which is also `_route2_supply_rate_x_locked`. -/
def frontierGrowthRateX (history : List (ℚ × ℚ)) : ℚ :=
  match history.head?, history.getLast? with
  | some first, some last =>
    if observationSeconds history < 1 / 4 then 0
    else max 0 ((last.2 - first.2) / observationSeconds history)
  | _, _ => 0

/-- The spread of the candidates, relative to the largest. -/
def volatilityRatio : List ℚ → ℚ
  | [] | [_] => 0
  | first :: rest =>
    let largest := rest.foldl max first
    (largest - rest.foldl min first) / max largest (1 / 1000)

section Rates

variable (ema : ℚ → List ℚ → ℚ)

/-- The fast average, the slow average and the median of the rates. -/
def averageRates (history : List (ℚ × ℚ)) : ℚ × ℚ × ℚ :=
  let rates := intervalRates history
  if rates.isEmpty then
    let overall := frontierGrowthRateX history
    (overall, overall, overall)
  else
    (ema supplyRateFastEmaAlpha rates, ema supplyRateSlowEmaAlpha rates,
      max 0 (median rates))

/-- `rate_candidates` -/
def rateCandidates (history : List (ℚ × ℚ)) : List ℚ :=
  let (fastEma, slowEma, medianRate) := averageRates ema history
  [frontierGrowthRateX history, fastEma, slowEma, medianRate].filter (0 < ·)

/-- `display_confident`, by the `ROUTE2_ETA_DISPLAY` bounds. -/
def displayConfident (history : List (ℚ × ℚ)) : Bool :=
  let observed := observationSeconds history
  let events := (intervalRates history).length
  let candidates := rateCandidates ema history
  !candidates.isEmpty
    && (decide (10 ≤ observed ∧ 3 ≤ events ∧ volatilityRatio candidates ≤ 19 / 20)
      || decide (14 ≤ observed ∧ 3 + 1 ≤ events))

end Rates

/-- A loop over the latest intervals: how many seconds they held without a break.
It does not start when the other loop found more than `0.001`. -/
def suffixSeconds (holds : ℚ → Bool) (other : ℚ) : List (ℚ × ℚ) → ℚ
  | [] => 0
  | (seconds, rate) :: earlier =>
    if holds rate && decide (other ≤ 1 / 1000) then seconds + suffixSeconds holds other earlier
    else 0

/-- An interval with a surplus. -/
def surplus (rate : ℚ) : Bool := decide (supplySurplusMinRateX ≤ rate + 1 / 1000)

/-- An interval slower than real time. -/
def undersupplied (rate : ℚ) : Bool := decide (rate < 1)

/-- The fields of the evidence. -/
structure Evidence where
  sampleCount : ℕ
  firstSampleTs : Option ℚ
  latestSampleTs : Option ℚ
  latestIntervalRateX : ℚ
  frontierGrowthRateX : ℚ
  fastEmaRateX : ℚ
  slowEmaRateX : ℚ
  medianRateX : ℚ
  volatilityRatio : ℚ
  positiveGrowthEvents : ℕ
  positiveSuffixSeconds : ℚ
  negativeSuffixSeconds : ℚ
  displayConfident : Bool

/-- `_route2_lite_frontier_evidence` -/
def frontierEvidence (epoch : Epoch) : Evidence :=
  let history := epoch.frontierSamples
  if history.length < 2 then
    ⟨history.length, none, none, 0, 0, 0, 0, 0, 0, 0, 0, 0, false⟩
  else
    let latest := (intervalPairs history).reverse
    let (fastEma, slowEma, medianRate) := averageRates emaRate history
    let positive := suffixSeconds surplus 0 latest
    { sampleCount := history.length
      firstSampleTs := history.head?.map Prod.fst
      latestSampleTs := history.getLast?.map Prod.fst
      latestIntervalRateX := (latest.head?.map Prod.snd).getD 0
      frontierGrowthRateX := frontierGrowthRateX history
      fastEmaRateX := fastEma
      slowEmaRateX := slowEma
      medianRateX := medianRate
      volatilityRatio := volatilityRatio (rateCandidates emaRate history)
      positiveGrowthEvents := (intervalRates history).length
      positiveSuffixSeconds := positive
      negativeSuffixSeconds := suffixSeconds undersupplied positive latest
      displayConfident := displayConfident emaRate history }

/-- `_route2_supply_model_locked` -/
def supplyModel (epoch : Epoch) : AttachGate.SupplyModel :=
  let history := epoch.frontierSamples
  { effectiveRateX :=
      match rateCandidates emaLocked history with
      | [] => 0
      | first :: rest => rest.foldl min first
    observationSeconds := observationSeconds history
    displayConfident := displayConfident emaLocked history }

/-! ### The decider -/

inductive LiteTier
  | liteUncertain
  | liteFast
  | liteUndersupply
  deriving DecidableEq

inductive DeciderState
  | neutral45
  | recoveryHold45
  | fastConfirmed15
  | undersupplyConfirmed180
  | fastCandidate
  | undersupplyCandidate
  deriving DecidableEq

/-- The fields of a browser session that belong to the decider. -/
structure BrowserPlayback where
  deciderStarted : Bool := false
  deciderStartedAtTs : ℚ := 0
  deciderLastSampleTs : ℚ := 0
  deciderState : DeciderState := .neutral45
  confirmedTier : LiteTier := .liteUncertain
  previousTier : Option LiteTier := none
  candidateTier : Option LiteTier := none
  deciderReason : String := "cold_start_or_unknown"
  positiveEvidenceSeconds : ℚ := 0
  negativeEvidenceSeconds : ℚ := 0
  hysteresisHoldReason : Option String := none
  recoveryHoldUntilTs : ℚ := 0
  seekHoldUntilTs : ℚ := 0

/-- The fields of a `MobilePlaybackSession` that are read here; the browser session is
an argument of its own. -/
structure Session extends AttachGate.Session where
  stalledRecoveryRequested : Bool
  lifecycleState : String
  clientPlaybackStallReason : Option String
  pendingTargetSeconds : Option ℚ

/-- The arguments of the decider. -/
structure Poll where
  session : Session
  epoch : Epoch
  supplyRateX : ℚ
  observationSeconds : ℚ
  displayConfident : Bool

variable (uni : PyText.Unicode)

def recoverySignal (session : Session) : Bool :=
  session.stalledRecoveryRequested
    || ["resuming", "recovering"].contains session.lifecycleState
    || PyText.strip uni (session.clientPlaybackStallReason.getD "") != ""

def seekSignal (session : Session) : Bool := session.pendingTargetSeconds.isSome

/-- The evidence seconds, positive and negative, after a call that sees `evidence`. -/
def accumulate (browser : BrowserPlayback) (evidence : Evidence) : ℚ × ℚ :=
  match evidence.latestSampleTs with
  | none => (0, 0)
  | some latestTs =>
    let previousTs := browser.deciderLastSampleTs
    if 0 < previousTs ∧ previousTs + 1 / 1000 < latestTs then
      let elapsed := max 0 (latestTs - previousTs)
      if surplus evidence.latestIntervalRateX then
        (max evidence.positiveSuffixSeconds (browser.positiveEvidenceSeconds + elapsed), 0)
      else if undersupplied evidence.latestIntervalRateX then
        (0, max evidence.negativeSuffixSeconds (browser.negativeEvidenceSeconds + elapsed))
      else (evidence.positiveSuffixSeconds, evidence.negativeSuffixSeconds)
    else
      (max browser.positiveEvidenceSeconds evidence.positiveSuffixSeconds,
        max browser.negativeEvidenceSeconds evidence.negativeSuffixSeconds)

/-- `reference_ts` -/
def referenceTs (evidence : Evidence) : ℚ := evidence.latestSampleTs.getD 0

/-- A hold, prolonged by a signal. -/
def prolong (signal : Bool) (referenceTs holdSeconds holdUntilTs : ℚ) : ℚ :=
  if signal && decide (0 < referenceTs) then max holdUntilTs (referenceTs + holdSeconds)
  else holdUntilTs

/-- The part of the decider that brings the browser session up to date: its start,
the evidence and the holds. -/
def refresh (browser : BrowserPlayback) (poll : Poll) : BrowserPlayback :=
  let evidence := frontierEvidence poll.epoch
  let seconds := accumulate browser evidence
  let starts := evidence.latestSampleTs.isSome && !browser.deciderStarted
  { browser with
    deciderStarted := browser.deciderStarted || starts
    deciderStartedAtTs :=
      if starts then evidence.firstSampleTs.getD (referenceTs evidence)
      else browser.deciderStartedAtTs
    deciderLastSampleTs := evidence.latestSampleTs.getD browser.deciderLastSampleTs
    positiveEvidenceSeconds := seconds.1
    negativeEvidenceSeconds := seconds.2
    recoveryHoldUntilTs := prolong (recoverySignal uni poll.session) (referenceTs evidence)
      postRecoveryHoldSeconds browser.recoveryHoldUntilTs
    seekHoldUntilTs := prolong (seekSignal poll.session) (referenceTs evidence)
      postSeekHoldSeconds browser.seekHoldUntilTs }

/-- `decider_age_seconds` -/
def deciderAgeSeconds (browser : BrowserPlayback) (evidence : Evidence) : ℚ :=
  if 0 < referenceTs evidence ∧ browser.deciderStarted then
    max 0 (referenceTs evidence - browser.deciderStartedAtTs)
  else 0

def coldStartHold (browser : BrowserPlayback) (evidence : Evidence) : Bool :=
  decide (deciderAgeSeconds browser evidence < coldStartGraceSeconds)

def postRecoveryHold (browser : BrowserPlayback) (evidence : Evidence) : Bool :=
  decide (0 < referenceTs evidence ∧ referenceTs evidence < browser.recoveryHoldUntilTs)

def postSeekHold (browser : BrowserPlayback) (evidence : Evidence) : Bool :=
  decide (0 < referenceTs evidence ∧ referenceTs evidence < browser.seekHoldUntilTs)

def sampleMature (poll : Poll) : Bool :=
  decide (minFrontierSampleCount ≤ (frontierEvidence poll.epoch).sampleCount
    ∧ AttachGate.supplyRateMinSampleSeconds ≤ poll.observationSeconds + 1 / 1000)

def fastSignal (browser : BrowserPlayback) (poll : Poll) : Bool :=
  sampleMature poll && surplus poll.supplyRateX && decide (0 < browser.positiveEvidenceSeconds)

def undersupplySignal (browser : BrowserPlayback) (poll : Poll) : Bool :=
  sampleMature poll && undersupplied poll.supplyRateX
    && decide (0 < browser.negativeEvidenceSeconds)

def candidateTier (browser : BrowserPlayback) (poll : Poll) : Option LiteTier :=
  if fastSignal browser poll then some .liteFast
  else if undersupplySignal browser poll then some .liteUndersupply
  else none

def displayReady (poll : Poll) : Bool :=
  poll.displayConfident || (frontierEvidence poll.epoch).displayConfident

/-- What a call decides. -/
structure Verdict where
  confirmedTier : LiteTier
  state : DeciderState
  reason : String
  hysteresisHoldReason : Option String

/-- The decision on a browser session that is up to date; it still has the tier that
the call before confirmed. -/
def verdict (browser : BrowserPlayback) (poll : Poll) : Verdict :=
  let evidence := frontierEvidence poll.epoch
  if !sampleMature poll then
    ⟨.liteUncertain, .neutral45, "lite_neutral_insufficient_samples",
      some (if evidence.sampleCount < minFrontierSampleCount then "insufficient_frontier_samples"
        else "immature_supply_observation")⟩
  else if coldStartHold browser evidence then
    ⟨.liteUncertain, .neutral45, "lite_neutral_cold_start_hold", some "cold_start_grace"⟩
  else if postRecoveryHold browser evidence then
    ⟨.liteUncertain, .recoveryHold45, "lite_recovery_hold_45", some "post_recovery_hold"⟩
  else if postSeekHold browser evidence then
    ⟨.liteUncertain, .recoveryHold45, "lite_seek_hold_45", some "post_seek_hold"⟩
  else if fastSignal browser poll
      && decide (fastConfirmSeconds ≤ browser.positiveEvidenceSeconds + 1 / 1000)
      && displayReady poll then
    -- a session that was undersupplied has to pass through neutral
    if browser.confirmedTier = .liteUndersupply then
      ⟨.liteUncertain, .neutral45, "lite_recovered_from_undersupply_neutral_45",
        some "undersupply_recovery_requires_neutral"⟩
    else ⟨.liteFast, .fastConfirmed15, "lite_fast_confirmed", none⟩
  else if undersupplySignal browser poll
      && decide (undersupplyConfirmSeconds ≤ browser.negativeEvidenceSeconds + 1 / 1000) then
    ⟨.liteUndersupply, .undersupplyConfirmed180, "lite_undersupply_confirmed", none⟩
  else if fastSignal browser poll then
    ⟨.liteUncertain, .fastCandidate, "lite_fast_candidate_pending_confirmation", none⟩
  else if undersupplySignal browser poll then
    ⟨.liteUncertain, .undersupplyCandidate, "lite_undersupply_candidate_pending_confirmation",
      none⟩
  else ⟨.liteUncertain, .neutral45, "lite_neutral_uncertain", none⟩

/-- The fields that the decider returns. -/
structure DeciderFields where
  deciderState : DeciderState
  previousTier : Option LiteTier
  candidateTier : Option LiteTier
  confirmedTier : LiteTier
  deciderReason : String
  positiveEvidenceSeconds : ℚ
  negativeEvidenceSeconds : ℚ
  frontierSampleCount : ℕ
  frontierGrowthRateX : ℚ
  effectiveSupplyRateX : ℚ
  supplyFastEmaRateX : ℚ
  supplySlowEmaRateX : ℚ
  supplyMedianRateX : ℚ
  hysteresisHoldReason : Option String
  coldStartHold : Bool
  postRecoveryHold : Bool
  postSeekHold : Bool

/-- `_route2_lite_decider_default_fields` with its defaults. -/
def defaultFields : DeciderFields :=
  ⟨.neutral45, none, none, .liteUncertain, "cold_start_or_unknown", 0, 0, 0, 0, 0, 0, 0, 0, none,
    true, false, false⟩

/-- The browser session with a verdict written to it. -/
def BrowserPlayback.record (browser : BrowserPlayback) (candidate : Option LiteTier)
    (decided : Verdict) : BrowserPlayback :=
  { browser with
    previousTier := some browser.confirmedTier
    candidateTier := candidate
    confirmedTier := decided.confirmedTier
    deciderState := decided.state
    deciderReason := decided.reason
    hysteresisHoldReason := decided.hysteresisHoldReason }

/-- `_route2_lite_threshold_decider_locked` -/
def liteThresholdDecider (browser : BrowserPlayback) (poll : Poll) :
    BrowserPlayback × DeciderFields :=
  let evidence := frontierEvidence poll.epoch
  let fresh := refresh uni browser poll
  let candidate := candidateTier fresh poll
  let decided := verdict fresh poll
  (fresh.record candidate decided,
    { deciderState := decided.state
      previousTier := some browser.confirmedTier
      candidateTier := candidate
      confirmedTier := decided.confirmedTier
      deciderReason := decided.reason
      positiveEvidenceSeconds := fresh.positiveEvidenceSeconds
      negativeEvidenceSeconds := fresh.negativeEvidenceSeconds
      frontierSampleCount := evidence.sampleCount
      frontierGrowthRateX := evidence.frontierGrowthRateX
      effectiveSupplyRateX := poll.supplyRateX
      supplyFastEmaRateX := evidence.fastEmaRateX
      supplySlowEmaRateX := evidence.slowEmaRateX
      supplyMedianRateX := evidence.medianRateX
      hysteresisHoldReason := decided.hysteresisHoldReason
      coldStartHold := coldStartHold fresh evidence
      postRecoveryHold := postRecoveryHold fresh evidence
      postSeekHold := postSeekHold fresh evidence })

/-! ### The start-up gate -/

/-- What the start-up gate returns, besides the fields of the decider. -/
structure StartupGate where
  ready : Bool
  estimateSeconds : Option ℚ
  supplyRateX : ℚ
  supplyObservationSeconds : ℚ
  requiredStartupRunwaySeconds : ℚ
  actualStartupRunwaySeconds : ℚ
  gateReason : String
  liteUndersupplyDetected : Bool
  liteUndersupplyReason : Option String
  liteRequiredRunwaySource : String
  fields : DeciderFields

/-- The request to the attach gate, with the `ROUTE2_STARTUP` constants. -/
def startupRequest (epoch : Epoch) : AttachGate.Request :=
  ⟨24, 45, 90, some epoch.attachPositionSeconds⟩

/-- The decider's arguments at the start-up gate. -/
def startupPoll (session : Session) (epoch : Epoch) : Poll :=
  let attach := AttachGate.attachGateState session.toSession epoch.toEpoch (supplyModel epoch)
    (startupRequest epoch)
  ⟨session, epoch, attach.supplyRateX, attach.observationSeconds, attach.displayConfident⟩

/-- The runway for a state of the decider. -/
def runwayFor : DeciderState → ℚ
  | .fastConfirmed15 => fastStartRunwaySeconds
  | .undersupplyConfirmed180 => undersupplyStartRunwaySeconds
  | _ => slowStartRunwaySeconds

/-- The runway, in the bounds of the media. -/
def boundedRunway (session : Session) (epoch : Epoch) (runwaySeconds : ℚ) : ℚ :=
  min runwaySeconds (max 0 (session.durationSeconds - epoch.attachPositionSeconds))

/-- `_route2_lite_initial_startup_gate_locked` -/
def liteInitialStartupGate (browser : BrowserPlayback) (session : Session) (epoch : Epoch) :
    BrowserPlayback × StartupGate :=
  if !epoch.initPublished || epoch.contiguousPublishedThroughSegment.isNone then
    (browser,
      { ready := false
        estimateSeconds := none
        supplyRateX := 0
        supplyObservationSeconds := 0
        requiredStartupRunwaySeconds := boundedRunway session epoch slowStartRunwaySeconds
        actualStartupRunwaySeconds := 0
        gateReason := "lite_slow_supply_unknown_or_deficit"
        liteUndersupplyDetected := false
        liteUndersupplyReason := none
        liteRequiredRunwaySource := "slow_path_45"
        fields := defaultFields })
  else
    let poll := startupPoll session epoch
    let (after, fields) := liteThresholdDecider uni browser poll
    let required := boundedRunway session epoch (runwayFor fields.deciderState)
    let actual := max 0 (AttachGate.epochReadyEndSeconds session.toSession epoch.toEpoch
      - epoch.attachPositionSeconds)
    let ready := decide (required ≤ actual + 1 / 1000)
    let (gateReason, source) :=
      match fields.deciderState with
      | .fastConfirmed15 => ("lite_fast_confirmed", "healthy_fast_start_15")
      | .undersupplyConfirmed180 => ("lite_undersupply_confirmed", "undersupply_180")
      | _ => (fields.deciderReason, "slow_path_45")
    let undersupply := decide (fields.deciderState = .undersupplyConfirmed180)
    (after,
      { ready
        estimateSeconds :=
          if ready then some 0
          else if 1 / 1000 < poll.supplyRateX then
            some (AttachGate.quantizedDeficit (max 0 (required - actual)) / poll.supplyRateX)
          else none
        supplyRateX := poll.supplyRateX
        supplyObservationSeconds := poll.observationSeconds
        requiredStartupRunwaySeconds := required
        actualStartupRunwaySeconds := actual
        gateReason
        liteUndersupplyDetected := undersupply
        liteUndersupplyReason :=
          if undersupply then some "sustained_supply_below_1_0" else none
        liteRequiredRunwaySource := source
        fields })

end LiteDecider
