/-
The adaptive shadow controller (`route2_adaptive_controller.py`).

From the metrics of one worker the controller names a bottleneck and recommends
a number of threads, with two flags that say whether an increase or a decrease
is safe.  Measured numbers are exact rationals.

* `clampThreads`, `adaptiveRecommendationCeiling`, `benchmarkPreferredPromotionTarget`
  -- the bounds;
* `strictTwelveTierHoldReason`, `externalHostPressureHoldReason` -- what holds an
  increase back;
* `classifyRoute2AdaptiveShadow` -- the decision;
* `Safe`, `adaptive_recommendation_safe_iff` -- the recommendation agrees with its
  flags, except for a worker with one thread that is over-supplied.
-/
import Mathlib.Data.Rat.Floor
import Mathlib.Data.List.Infix
import Elvern.PyText

namespace AdaptiveControl

/-! ### Inputs and decisions -/

/-- `Route2AdaptiveBottleneckClass` -/
inductive BottleneckClass where
  | cpuBound
  | sourceBound
  | clientBound
  | overSupplied
  | underSuppliedButCpuLimited
  | waitingForCapacity
  | storageBound
  | providerError
  | unknown
  deriving DecidableEq

/-- The fields of `Route2AdaptiveShadowInput` that the controller reads. -/
structure ShadowInput where
  workerState : String
  playbackMode : String
  sourceKind : String
  assignedThreads : ℤ
  defaultThreads : ℤ
  maxThreads : ℤ
  adaptiveMaxThreads : Option ℤ
  cpuCoresUsed : Option ℚ
  allocatedCpuCores : Option ℤ
  userCpuCoresUsedTotal : Option ℚ
  route2CpuUpboundCores : Option ℤ
  route2CpuCoresUsedTotal : Option ℚ
  activeRoute2UserCount : Option ℤ
  hostCpuTotalCores : Option ℤ
  hostCpuUsedCores : Option ℚ
  hostCpuUsedPercent : Option ℚ
  externalCpuCoresUsedEstimate : Option ℚ
  externalCpuPercentEstimate : Option ℚ
  externalFfmpegProcessCount : Option ℤ
  hostCpuSampleMature : Bool
  totalMemoryBytes : Option ℤ
  route2MemoryBytesTotal : Option ℤ
  route2MemoryPercentOfTotal : Option ℚ
  aheadRunwaySeconds : Option ℚ
  requiredStartupRunwaySeconds : Option ℚ
  supplyRateX : Option ℚ
  supplyObservationSeconds : Option ℚ
  clientGoodputBytesPerSecond : Option ℚ
  clientGoodputConfident : Bool
  serverGoodputBytesPerSecond : Option ℚ
  serverGoodputConfident : Bool
  nonRetryableError : Option String
  starvationRisk : Bool
  stalledRecoveryNeeded : Bool
  modeReady : Option Bool

/-- `Route2AdaptiveShadowDecision` -/
structure ShadowDecision where
  bottleneckClass : BottleneckClass
  bottleneckConfidence : ℚ
  recommendedThreads : ℤ
  currentThreads : ℤ
  reason : String
  safeToIncreaseThreads : Bool
  safeToDecreaseThreads : Bool
  missingMetrics : List String

/-- `value or default` on numbers. -/
def orElse {α : Type} [Zero α] [DecidableEq α] (value : Option α) (fallback : α) : α :=
  match value with
  | some v => if v = 0 then fallback else v
  | none => fallback

/-! ### Bounds -/

/-- `_default_required_runway_seconds` -/
def defaultRequiredRunwaySeconds (playbackMode : String) : ℚ :=
  if playbackMode = "full" then 120 else 45

/-- `_comfortable_runway_seconds` -/
def comfortableRunwaySeconds (playbackMode : String) (required : ℚ) : ℚ :=
  let baseline := max required (defaultRequiredRunwaySeconds playbackMode)
  let extra := if playbackMode = "full" then 60 else 20
  max (baseline * (3 / 2)) (baseline + extra)

/-- `_clamp_threads` -/
def clampThreads (value maxThreads : ℤ) : ℤ :=
  let upperBound := max 1 maxThreads
  let lowerBound := min 2 upperBound
  max lowerBound (min value upperBound)

/-- `_benchmark_preferred_promotion_target` -/
def benchmarkPreferredPromotionTarget (currentThreads : ℤ) : ℤ :=
  let target :=
    if currentThreads ≤ 5 then 6
    else if currentThreads ≤ 8 then 9
    else if currentThreads ≤ 11 then 12
    else currentThreads
  max currentThreads target

/-- `_ladder_reason_for_target` -/
def ladderReasonForTarget (targetThreads : ℤ) : String :=
  if targetThreads = 6 then
    "Benchmark-informed ladder selected 6 as the first CPU-bound promotion target."
  else if targetThreads = 9 then
    "Benchmark data shows 6-8 often plateau; selecting 9 as the next useful tier."
  else if targetThreads = 12 then
    "Strict experimental 12-thread heavy tier conditions passed."
  else "Benchmark-informed ladder did not select a higher thread tier."

/-- `_looks_like_provider_error` -/
def looksLikeProviderError (uni : PyText.Unicode) (message : Option String) : Bool :=
  let normalized := PyText.lower uni (PyText.strip uni (message.getD ""))
  decide (normalized ≠ "") &&
    ["quota", "provider", "google drive", "gdrive", "forbidden", "unauthorized", "permission",
      "source", "auth", "rate limit"].any fun marker =>
        decide (marker.toList <:+: normalized.toList)

/-- `_budget_pressure_ratio` -/
def budgetPressureRatio (usedCores : Option ℚ) (budgetCores : Option ℤ) : Option ℚ :=
  match usedCores, budgetCores with
  | some used, some budget => some (used / max (budget : ℚ) (1 / 1000))
  | _, _ => none

namespace ShadowInput

variable (payload : ShadowInput)

/-- `_effective_current_threads` -/
def effectiveCurrentThreads : ℤ :=
  max 1 (if 0 < payload.assignedThreads then payload.assignedThreads else payload.defaultThreads)

/-- The cap that a count of cores puts on a ceiling. -/
def cappedBy (cores : Option ℤ) (ceiling : ℤ) : ℤ :=
  match cores with
  | some cores => if 0 < cores then min ceiling (max 1 cores) else ceiling
  | none => ceiling

/-- `_adaptive_recommendation_ceiling` -/
def adaptiveRecommendationCeiling : ℤ :=
  let ceiling := match payload.adaptiveMaxThreads with
    | some adaptive => if 0 < adaptive then adaptive else payload.maxThreads
    | none => payload.maxThreads
  max 1 (cappedBy payload.allocatedCpuCores (cappedBy payload.route2CpuUpboundCores ceiling))

/-- `_worker_thread_pressure_ratio` -/
def workerThreadPressureRatio (currentThreads : ℤ) : Option ℚ :=
  match payload.cpuCoresUsed with
  | none => none
  | some used => if 0 < currentThreads then some (used / max currentThreads 1) else none

/-- `_route2_memory_pressure_ratio` -/
def route2MemoryPressureRatio : Option ℚ :=
  match payload.totalMemoryBytes.filter (fun total => decide (total ≠ 0)),
      payload.route2MemoryBytesTotal with
  | some total, some used => some ((used : ℚ) / max (total : ℚ) 1)
  | _, _ => payload.route2MemoryPercentOfTotal.map fun percent => max 0 percent / 100

/-- `_has_weak_client` -/
def hasWeakClient : Bool :=
  if payload.stalledRecoveryNeeded then true
  else if !payload.clientGoodputConfident then false
  else
    match payload.serverGoodputBytesPerSecond, payload.clientGoodputBytesPerSecond with
    | some server, some client =>
      payload.serverGoodputConfident && decide (0 < server) && decide (client < server * (65 / 100))
    | _, _ => false

/-- Whether the worker uses most of its threads: at least this share of them,
and at least so many cores. -/
def cpuActive (currentThreads : ℤ) (share least : ℚ) : Bool :=
  payload.cpuCoresUsed.any fun used =>
    (payload.workerThreadPressureRatio currentThreads).any (fun ratio => decide (share ≤ ratio))
      || decide (max least (currentThreads * share) ≤ used)

/-! ### What holds an increase back -/

/-- The measured state that the two guards are called with. -/
structure Measured where
  currentThreads : ℤ
  supplyRateX : ℚ
  runwaySeconds : ℚ
  requiredStartupRunwaySeconds : ℚ
  userHeadroomCores : Option ℚ
  globalHeadroomCores : Option ℚ
  memoryPressureRatio : Option ℚ

/-- `clearly_low_supply`, for each guard with its own rate. -/
def Measured.clearlyLowSupply (m : Measured) (rate : ℚ) : Bool :=
  decide (m.supplyRateX < rate) ||
    decide (m.runwaySeconds + 1 / 1000 < m.requiredStartupRunwaySeconds * (75 / 100))

/-- `_strict_twelve_tier_hold_reason` -/
def strictTwelveTierHoldReason (m : Measured) : Option String :=
  let refused (text : String) : Option String :=
    some ("12 is a strict experimental heavy tier and was not selected because " ++ text)
  if m.currentThreads < 9 ∨ 11 < m.currentThreads then none
  else if payload.sourceKind ≠ "local" then
    some "Cloud provider/source guard blocks 12-tier promotion; 12 remains strict/experimental for cloud."
  else if payload.activeRoute2UserCount ≠ some 1 then
    if payload.activeRoute2UserCount.isNone then
      refused "active Route2 user accounting is unavailable."
    else refused "multiple Route2 users are active."
  else if !payload.supplyObservationSeconds.any (fun seconds => decide (20 ≤ seconds)) then
    refused "the supply sample is not long enough."
  else if !payload.cpuActive m.currentThreads (95 / 100) 2 then
    refused "the worker is not strongly CPU-active."
  else if !m.clearlyLowSupply (90 / 100) then
    refused "supply is not clearly low enough."
  else
    match m.userHeadroomCores, m.globalHeadroomCores with
    | some user, some overall =>
      if min user overall < 3 then
        refused "user/global CPU headroom is not large enough."
      else
        match m.memoryPressureRatio with
        | none => refused "memory pressure is unmeasured."
        | some ratio =>
          if 80 / 100 ≤ ratio then refused "the memory pressure guard blocks it."
          else none
    | _, _ => refused "CPU headroom is unmeasured."

/-- A share that may be given in percent. -/
def ratioOf (value : Option ℚ) : ℚ :=
  let ratio := max 0 (orElse value 0)
  if 1 < ratio then ratio / 100 else ratio

/-- `_external_host_pressure_hold_reason` -/
def externalHostPressureHoldReason (m : Measured) (targetThreads : ℤ) : Option String :=
  if targetThreads ≤ m.currentThreads then none
  else if !(payload.hostCpuSampleMature && payload.hostCpuTotalCores.isSome
      && payload.hostCpuUsedCores.isSome && payload.hostCpuUsedPercent.isSome) then
    if targetThreads ≤ 6 ∧ payload.cpuActive m.currentThreads (95 / 100) 2 = true
        ∧ m.clearlyLowSupply (85 / 100) = true then none
    else
      some ("Host CPU pressure metrics are missing or immature; non-Elvern workload has priority, "
        ++ "so shadow controller blocks higher Route2 promotion.")
  else
    let hostTotalCores := max 1 ((orElse payload.hostCpuTotalCores 1 : ℤ) : ℚ)
    let hostUsedCores := max 0 (orElse payload.hostCpuUsedCores 0)
    let externalCpuCores := max 0 (orElse payload.externalCpuCoresUsedEstimate 0)
    let externalCpuRatio := ratioOf payload.externalCpuPercentEstimate
    let externalFfmpegCount := max 0 (orElse payload.externalFfmpegProcessCount 0)
    let hostSpareCores := max 0 (hostTotalCores - hostUsedCores)
    if 4 ≤ externalCpuCores ∨ 20 / 100 ≤ externalCpuRatio then
      some ("External host CPU pressure is present; non-Elvern workload has priority, "
        ++ "so shadow controller blocks Route2 promotion.")
    else if 0 < externalFfmpegCount ∧ 9 ≤ targetThreads then
      some ("External ffmpeg process detected; non-Elvern ffmpeg has priority, "
        ++ "so shadow controller blocks aggressive Route2 promotion.")
    else if 0 < externalFfmpegCount
        ∧ (hostSpareCores < 2 ∨ 1 ≤ externalCpuCores ∨ 5 / 100 ≤ externalCpuRatio) then
      some ("External ffmpeg process detected and host spare capacity is limited; "
        ++ "shadow controller blocks Route2 promotion.")
    else if (3 ≤ externalCpuCores ∨ 15 / 100 ≤ externalCpuRatio) ∧ 6 < targetThreads then
      some ("Moderate external host CPU pressure limits Route2 to the first promotion tier; "
        ++ "shadow controller blocks higher Route2 promotion.")
    else none

/-! ### The decision -/

/-- `missing_metrics` -/
def missingMetrics : List String :=
  [(payload.cpuCoresUsed.isNone, "cpu_cores_used"),
    (payload.allocatedCpuCores.isNone, "allocated_cpu_cores"),
    (payload.userCpuCoresUsedTotal.isNone, "user_cpu_cores_used_total"),
    (payload.route2CpuUpboundCores.isNone, "route2_cpu_upbound_cores"),
    (payload.route2CpuCoresUsedTotal.isNone, "route2_cpu_cores_used_total"),
    (payload.activeRoute2UserCount.isNone, "active_route2_user_count"),
    (!payload.hostCpuSampleMature, "host_cpu_sample_mature"),
    (payload.hostCpuTotalCores.isNone, "host_cpu_total_cores"),
    (payload.hostCpuUsedCores.isNone, "host_cpu_used_cores"),
    (payload.hostCpuUsedPercent.isNone, "host_cpu_used_percent"),
    (payload.externalCpuCoresUsedEstimate.isNone, "external_cpu_cores_used_estimate"),
    (payload.externalCpuPercentEstimate.isNone, "external_cpu_percent_estimate"),
    (payload.externalFfmpegProcessCount.isNone, "external_ffmpeg_process_count"),
    (payload.aheadRunwaySeconds.isNone, "ahead_runway_seconds"),
    (payload.supplyRateX.isNone, "supply_rate_x"),
    (payload.supplyObservationSeconds.isNone, "supply_observation_seconds"),
    (payload.totalMemoryBytes.isNone, "total_memory_bytes"),
    (payload.route2MemoryBytesTotal.isNone && payload.route2MemoryPercentOfTotal.isNone,
      "route2_memory_bytes_total")].filterMap fun metric =>
        if metric.1 then some metric.2 else none

/-- A decision that recommends the threads there are. -/
def keep (bottleneckClass : BottleneckClass) (confidence : ℚ) (reason : String) :
    ShadowDecision where
  bottleneckClass := bottleneckClass
  bottleneckConfidence := confidence
  recommendedThreads := payload.effectiveCurrentThreads
  currentThreads := payload.effectiveCurrentThreads
  reason := reason
  safeToIncreaseThreads := false
  safeToDecreaseThreads := false
  missingMetrics := payload.missingMetrics

/-- `required_startup_runway_seconds` -/
def requiredRunway : ℚ :=
  max 0 (orElse payload.requiredStartupRunwaySeconds
    (defaultRequiredRunwaySeconds payload.playbackMode))

/-- `user_headroom_cores` -/
def userHeadroomCores : Option ℚ :=
  match payload.allocatedCpuCores, payload.userCpuCoresUsedTotal with
  | some allocated, some used => some ((allocated : ℚ) - used)
  | _, _ => none

/-- `global_headroom_cores` -/
def globalHeadroomCores : Option ℚ :=
  match payload.route2CpuUpboundCores, payload.route2CpuCoresUsedTotal with
  | some upbound, some used => some ((upbound : ℚ) - used)
  | _, _ => none

/-- `resource_headroom_ceiling` -/
def resourceHeadroomCeiling : ℤ :=
  match payload.userHeadroomCores, payload.globalHeadroomCores with
  | some user, some overall => payload.effectiveCurrentThreads + max 0 ⌊min user overall⌋
  | _, _ => payload.effectiveCurrentThreads

/-- What the guards are called with, for a runway and a supply rate. -/
def measured (runwaySeconds supplyRateX : ℚ) : Measured where
  currentThreads := payload.effectiveCurrentThreads
  supplyRateX := supplyRateX
  runwaySeconds := runwaySeconds
  requiredStartupRunwaySeconds := payload.requiredRunway
  userHeadroomCores := payload.userHeadroomCores
  globalHeadroomCores := payload.globalHeadroomCores
  memoryPressureRatio := payload.route2MemoryPressureRatio

/-- `target_increase_threads` -/
def targetIncreaseThreads (m : Measured) : ℤ :=
  let preferred := benchmarkPreferredPromotionTarget payload.effectiveCurrentThreads
  if preferred = 12 ∧ (payload.strictTwelveTierHoldReason m).isSome then
    payload.effectiveCurrentThreads
  else preferred

/-- The conditions of an increase. -/
def increaseAllowed (m : Measured) : Bool :=
  decide (payload.effectiveCurrentThreads < payload.targetIncreaseThreads m)
    && (payload.externalHostPressureHoldReason m (payload.targetIncreaseThreads m)).isNone
    && decide (payload.targetIncreaseThreads m ≤ payload.adaptiveRecommendationCeiling)
    && decide (payload.targetIncreaseThreads m ≤ payload.resourceHeadroomCeiling)
    && payload.userHeadroomCores.any (fun cores => decide (1 ≤ cores))
    && payload.globalHeadroomCores.any (fun cores => decide (1 ≤ cores))

/-- The decision to increase. -/
def increase (m : Measured) : ShadowDecision where
  bottleneckClass := .cpuBound
  bottleneckConfidence :=
    if (budgetPressureRatio payload.userCpuCoresUsedTotal payload.allocatedCpuCores).isSome
        && (budgetPressureRatio payload.route2CpuCoresUsedTotal
          payload.route2CpuUpboundCores).isSome
      then 9 / 10 else 82 / 100
  recommendedThreads := payload.targetIncreaseThreads m
  currentThreads := payload.effectiveCurrentThreads
  reason :=
    "Low supply with a CPU-active worker and available user/global CPU headroom; "
      ++ "adaptive ceiling permits promotion. "
      ++ ladderReasonForTarget (payload.targetIncreaseThreads m)
      ++ (if payload.maxThreads < payload.adaptiveRecommendationCeiling then
          " Real worker spawn is still capped at " ++ toString payload.maxThreads
            ++ "; shadow adaptive control would recommend "
            ++ toString (payload.targetIncreaseThreads m) ++ " if enabled."
        else "")
      ++ (if payload.activeRoute2UserCount = some 1 then
          " Single-user Route2 accounting is present; future real adaptive spawn could consider "
            ++ "starting at 6 only after continuous telemetry is mature."
        else "")
  safeToIncreaseThreads :=
    decide (payload.effectiveCurrentThreads < payload.targetIncreaseThreads m)
  safeToDecreaseThreads := false
  missingMetrics := payload.missingMetrics

/-- Why an increase is held back. -/
def heldReason (m : Measured) : String :=
  let current := payload.effectiveCurrentThreads
  let preferred := benchmarkPreferredPromotionTarget current
  let ceiling := payload.adaptiveRecommendationCeiling
  match payload.externalHostPressureHoldReason m (payload.targetIncreaseThreads m),
      payload.strictTwelveTierHoldReason m with
  | some reason, _ => reason
  | none, some reason => reason
  | none, none =>
    if ceiling ≤ current ∨ ceiling < preferred then
      "Supply is lagging and the worker is CPU-active, but the adaptive recommendation ceiling "
        ++ "prevents a shadow thread increase."
    else if payload.resourceHeadroomCeiling < preferred then
      "Supply is lagging and the worker is CPU-active, but user/global CPU headroom is not large "
        ++ "enough for the next benchmark-informed thread tier."
    else if !payload.userHeadroomCores.any (fun cores => decide (1 ≤ cores))
        || !payload.globalHeadroomCores.any (fun cores => decide (1 ≤ cores)) then
      "Supply is lagging and the worker is CPU-active, but user or global Route2 CPU headroom "
        ++ "is unavailable or unmeasured."
    else if preferred ≤ current then
      "Benchmark-informed ladder has no default increase beyond the current thread tier."
    else
      "Supply is lagging and the worker is CPU-active, but no safe shadow thread increase is available."

/-- The exits for a worker that is CPU-active and short of supply. -/
def classifyCpuActive (m : Measured) : ShadowDecision :=
  match m.memoryPressureRatio with
  | none =>
    payload.keep .underSuppliedButCpuLimited (72 / 100)
      ("Supply is lagging and the worker is CPU-active, but memory metrics are missing so the "
        ++ "shadow controller will not promote threads.")
  | some ratio =>
    -- the hard limit of 0.90 lies above the soft one
    if 90 / 100 ≤ ratio ∨ 80 / 100 ≤ ratio then
      payload.keep .underSuppliedButCpuLimited (84 / 100)
        ("Supply is lagging and the worker is CPU-active, but the memory pressure guard blocks a "
          ++ "shadow thread increase.")
    else if payload.increaseAllowed m then payload.increase m
    else
      payload.keep .underSuppliedButCpuLimited
        (if (budgetPressureRatio payload.userCpuCoresUsedTotal payload.allocatedCpuCores).isSome
          || (budgetPressureRatio payload.route2CpuCoresUsedTotal
            payload.route2CpuUpboundCores).isSome
          then 88 / 100 else 78 / 100)
        (payload.heldReason m)

/-- `weak_server_goodput` -/
def weakServerGoodput : Bool :=
  match payload.serverGoodputBytesPerSecond, payload.clientGoodputBytesPerSecond with
  | some server, some client =>
    payload.serverGoodputConfident && payload.clientGoodputConfident && decide (server ≤ client)
  | _, _ => false

/-- The decision that the worker is ahead of demand. -/
def tooFast : ShadowDecision :=
  let current := payload.effectiveCurrentThreads
  let recommended := clampThreads (current - 2) (max current payload.maxThreads)
  { bottleneckClass := .overSupplied
    bottleneckConfidence := if payload.modeReady = some true then 88 / 100 else 78 / 100
    recommendedThreads := recommended
    currentThreads := current
    reason := "Supply is comfortably ahead of demand; shadow controller would trend toward fewer threads."
    safeToIncreaseThreads := false
    safeToDecreaseThreads := decide (recommended < current)
    missingMetrics := payload.missingMetrics }

/-- The condition of that decision. -/
def aheadOfDemand (runwaySeconds supplyRateX : ℚ) : Bool :=
  decide (3 / 2 ≤ supplyRateX)
    && decide (comfortableRunwaySeconds payload.playbackMode payload.requiredRunway
      ≤ runwaySeconds + 1 / 1000)
    && !payload.starvationRisk && !payload.stalledRecoveryNeeded

/-- The exits for an adequate sample, with its runway and its supply rate. -/
def classifySample (runwaySeconds supplyRateX : ℚ) : ShadowDecision :=
  let workerCpuActive := payload.cpuActive payload.effectiveCurrentThreads (85 / 100) 1
  let lowOrModerateCpu := payload.cpuCoresUsed.isSome && !workerCpuActive
  let supplyHealthy := decide (1 ≤ supplyRateX)
    && decide (payload.requiredRunway ≤ runwaySeconds + 1 / 1000)
  let lowSupply := decide (supplyRateX < 1)
    || decide (runwaySeconds + 1 / 1000 < payload.requiredRunway)
  let clientBound := supplyHealthy && payload.hasWeakClient
  if payload.aheadOfDemand runwaySeconds supplyRateX then payload.tooFast
  else if clientBound then
    payload.keep .clientBound (if payload.clientGoodputConfident then 82 / 100 else 68 / 100)
      ("Backend supply looks healthy, but client-side goodput or stalled recovery suggests the "
        ++ "client is the limiter.")
  else if lowSupply && workerCpuActive && !clientBound then
    payload.classifyCpuActive (payload.measured runwaySeconds supplyRateX)
  else if lowSupply && (decide (payload.sourceKind = "cloud") || payload.weakServerGoodput)
      && !clientBound && lowOrModerateCpu then
    payload.keep .sourceBound (if payload.serverGoodputConfident then 72 / 100 else 58 / 100)
      ("Supply is lagging without corresponding CPU pressure, which points to the source side "
        ++ "rather than transcode threads.")
  else if lowSupply && decide (payload.sourceKind = "local") && !clientBound &&
      lowOrModerateCpu then
    payload.keep .storageBound (35 / 100)
      ("Local supply is lagging without clear CPU or client pressure; storage remains the best "
        ++ "low-confidence explanation until disk metrics exist.")
  else
    payload.keep .unknown (3 / 10)
      "No strong bottleneck signal stands out from the current Route2 samples."

/-- The runway and the supply rate of an adequate sample. -/
def adequateSample : Option (ℚ × ℚ) :=
  match payload.aheadRunwaySeconds, payload.supplyRateX, payload.supplyObservationSeconds with
  | some runway, some rate, some observed =>
    if 6 ≤ observed then some (max 0 runway, max 0 rate) else none
  | _, _, _ => none

/-- `classify_route2_adaptive_shadow` -/
def classifyRoute2AdaptiveShadow (uni : PyText.Unicode) : ShadowDecision :=
  if looksLikeProviderError uni payload.nonRetryableError then
    payload.keep .providerError (98 / 100)
      "Provider or source failure is already explicit; changing threads would not help."
  else if payload.workerState = "queued" ∨ payload.workerState = "waiting_for_capacity" then
    payload.keep .waitingForCapacity (98 / 100)
      ("Worker is waiting for scheduler capacity; shadow controller should not recommend more "
        ++ "threads.")
  else
    match payload.adequateSample with
    | none =>
      payload.keep .unknown (25 / 100)
        ("early_bootstrap_insufficient_samples: Route2 supply metrics are not mature enough for a "
          ++ "safe recommendation.")
    | some (runwaySeconds, supplyRateX) => payload.classifySample runwaySeconds supplyRateX

/-! ### The recommendation and its flags -/

/-- The recommendation agrees with the class and the flags, and an increase
stays below the ceilings. -/
structure Safe (decision : ShadowDecision) : Prop where
  increase : decision.currentThreads < decision.recommendedThreads →
    decision.bottleneckClass = .cpuBound ∧ decision.safeToIncreaseThreads = true
  decrease : decision.recommendedThreads < decision.currentThreads →
    decision.bottleneckClass = .overSupplied ∧ decision.safeToDecreaseThreads = true
  flags : ¬ (decision.safeToIncreaseThreads = true ∧ decision.safeToDecreaseThreads = true)
  ceiling : decision.currentThreads < decision.recommendedThreads →
    decision.recommendedThreads ≤ payload.adaptiveRecommendationCeiling
      ∧ ∃ user overall, payload.userHeadroomCores = some user
        ∧ payload.globalHeadroomCores = some overall
        ∧ decision.recommendedThreads ≤ decision.currentThreads + ⌊min user overall⌋

section Safety

variable {payload}

theorem safe_keep (bottleneckClass : BottleneckClass) (confidence : ℚ) (reason : String) :
    payload.Safe (payload.keep bottleneckClass confidence reason) where
  increase h := absurd h (lt_irrefl _)
  decrease h := absurd h (lt_irrefl _)
  flags h := Bool.false_ne_true h.1
  ceiling h := absurd h (lt_irrefl _)

theorem safe_ite {c : Prop} [Decidable c] {a b : ShadowDecision} (ha : c → payload.Safe a)
    (hb : ¬ c → payload.Safe b) : payload.Safe (if c then a else b) := by
  by_cases hc : c
  · rw [if_pos hc]
    exact ha hc
  · rw [if_neg hc]
    exact hb hc

/-- An increase that is allowed stays below every ceiling. -/
theorem safe_increase {m : Measured} (h : payload.increaseAllowed m = true) :
    payload.Safe (payload.increase m) := by
  simp only [increaseAllowed, Bool.and_eq_true, decide_eq_true_eq] at h
  obtain ⟨⟨⟨⟨⟨hlt, -⟩, hceiling⟩, hheadroom⟩, huser⟩, hglobal⟩ := h
  refine ⟨fun _ => ⟨rfl, decide_eq_true hlt⟩, fun hdecrease => ?_, fun hboth => ?_, fun _ => ?_⟩
  · exact absurd hdecrease (not_lt.2 hlt.le)
  · exact Bool.false_ne_true hboth.2
  · refine ⟨hceiling, ?_⟩
    obtain ⟨user, huserSome, huserLe⟩ := Option.any_eq_true _ _ |>.mp huser
    obtain ⟨overall, hglobalSome, hglobalLe⟩ := Option.any_eq_true _ _ |>.mp hglobal
    refine ⟨user, overall, huserSome, hglobalSome, ?_⟩
    simp only [resourceHeadroomCeiling, huserSome, hglobalSome] at hheadroom
    -- both headrooms are at least one core, so the floor is not cut off
    have hfloor : 0 ≤ ⌊min user overall⌋ := by
      apply Int.floor_nonneg.2
      have huser' := of_decide_eq_true huserLe
      have hglobal' := of_decide_eq_true hglobalLe
      exact le_min (by linarith) (by linarith)
    rwa [max_eq_right hfloor] at hheadroom

theorem safe_classifyCpuActive (m : Measured) : payload.Safe (payload.classifyCpuActive m) := by
  unfold classifyCpuActive
  split
  · exact safe_keep _ _ _
  · refine safe_ite (fun _ => safe_keep _ _ _) fun _ => ?_
    exact safe_ite (fun hallowed => safe_increase hallowed) fun _ => safe_keep _ _ _

theorem effectiveCurrentThreads_pos : 1 ≤ payload.effectiveCurrentThreads := le_max_left _ _

/-- The recommendation to a worker that is ahead of demand: two threads less,
but two at least where two are allowed. -/
theorem safe_tooFast_iff :
    payload.Safe payload.tooFast ↔
      ¬ (payload.effectiveCurrentThreads = 1 ∧ 2 ≤ payload.maxThreads) := by
  have hpos : 1 ≤ payload.effectiveCurrentThreads := effectiveCurrentThreads_pos
  have hclamp : payload.tooFast.recommendedThreads ≤ payload.tooFast.currentThreads ↔
      ¬ (payload.effectiveCurrentThreads = 1 ∧ 2 ≤ payload.maxThreads) := by
    show clampThreads (payload.effectiveCurrentThreads - 2)
      (max payload.effectiveCurrentThreads payload.maxThreads) ≤ payload.effectiveCurrentThreads ↔ _
    rw [clampThreads]
    omega
  rw [← hclamp]
  constructor
  · intro h
    by_contra hlt
    exact absurd (h.increase (not_le.1 hlt)).2 Bool.false_ne_true
  · intro hle
    refine ⟨fun hlt => ?_, fun hlt => ⟨rfl, decide_eq_true hlt⟩, fun hboth => ?_, fun hlt => ?_⟩
    · exact absurd hlt (not_lt.2 hle)
    · exact Bool.false_ne_true hboth.1
    · exact absurd hlt (not_lt.2 hle)

theorem safe_classifySample (runwaySeconds supplyRateX : ℚ) :
    payload.Safe (payload.classifySample runwaySeconds supplyRateX) ↔
      (payload.aheadOfDemand runwaySeconds supplyRateX = true →
        payload.Safe payload.tooFast) := by
  simp only [classifySample]
  by_cases hahead : payload.aheadOfDemand runwaySeconds supplyRateX = true
  · rw [if_pos hahead]
    exact ⟨fun h _ => h, fun h => h hahead⟩
  · rw [if_neg hahead]
    refine iff_of_true ?_ fun h => absurd h hahead
    refine safe_ite (fun _ => safe_keep _ _ _) fun _ => ?_
    refine safe_ite (fun _ => safe_classifyCpuActive _) fun _ => ?_
    refine safe_ite (fun _ => safe_keep _ _ _) fun _ => ?_
    exact safe_ite (fun _ => safe_keep _ _ _) fun _ => safe_keep _ _ _

end Safety

/-- The worker is ahead of demand by an adequate sample, and nothing is decided
before. -/
def OverSupplied (uni : PyText.Unicode) : Prop :=
  looksLikeProviderError uni payload.nonRetryableError = false
    ∧ payload.workerState ≠ "queued" ∧ payload.workerState ≠ "waiting_for_capacity"
    ∧ ∃ runwaySeconds supplyRateX, payload.adequateSample = some (runwaySeconds, supplyRateX)
      ∧ payload.aheadOfDemand runwaySeconds supplyRateX = true

/-- **The controller is safe** unless the worker is over-supplied and has one
thread where two are allowed. -/
theorem adaptive_recommendation_safe_iff (uni : PyText.Unicode) :
    payload.Safe (payload.classifyRoute2AdaptiveShadow uni) ↔
      ¬ (payload.OverSupplied uni ∧ payload.effectiveCurrentThreads = 1 ∧
          2 ≤ payload.maxThreads) := by
  unfold classifyRoute2AdaptiveShadow
  split_ifs with hprovider hwaiting
  · refine iff_of_true (safe_keep _ _ _) ?_
    rintro ⟨⟨hnot, -⟩, -⟩
    rw [hprovider] at hnot
    cases hnot
  · refine iff_of_true (safe_keep _ _ _) ?_
    rintro ⟨⟨-, hqueued, hcapacity, -⟩, -⟩
    exact hwaiting.elim hqueued hcapacity
  · obtain ⟨hqueued, hcapacity⟩ := not_or.1 hwaiting
    cases hsample : payload.adequateSample with
    | none =>
      refine iff_of_true (safe_keep _ _ _) ?_
      rintro ⟨⟨-, -, -, runwaySeconds, supplyRateX, hsome, -⟩, -⟩
      rw [hsample] at hsome
      cases hsome
    | some sample =>
      obtain ⟨runwaySeconds, supplyRateX⟩ := sample
      have hover : payload.OverSupplied uni ↔
          payload.aheadOfDemand runwaySeconds supplyRateX = true := by
        constructor
        · rintro ⟨-, -, -, runway, rate, hsome, hahead⟩
          rw [hsample] at hsome
          cases hsome
          exact hahead
        · intro hahead
          exact ⟨Bool.not_eq_true _ ▸ hprovider, hqueued, hcapacity, _, _, hsample, hahead⟩
      show payload.Safe (payload.classifySample runwaySeconds supplyRateX) ↔ _
      rw [safe_classifySample, safe_tooFast_iff, hover, not_and (b := _ ∧ _)]

end ShadowInput

/-- The ASCII part of the Unicode tables. -/
def asciiTables : PyText.Unicode where
  isSpace := Char.isWhitespace
  isDigit := Char.isDigit
  lower c := [c.toLower]

/-- A worker with one thread, well ahead of demand. -/
def oneThread : ShadowInput where
  workerState := "running"
  playbackMode := "lite"
  sourceKind := "local"
  assignedThreads := 1
  defaultThreads := 4
  maxThreads := 4
  adaptiveMaxThreads := none
  cpuCoresUsed := none
  allocatedCpuCores := none
  userCpuCoresUsedTotal := none
  route2CpuUpboundCores := none
  route2CpuCoresUsedTotal := none
  activeRoute2UserCount := none
  hostCpuTotalCores := none
  hostCpuUsedCores := none
  hostCpuUsedPercent := none
  externalCpuCoresUsedEstimate := none
  externalCpuPercentEstimate := none
  externalFfmpegProcessCount := none
  hostCpuSampleMature := false
  totalMemoryBytes := none
  route2MemoryBytesTotal := none
  route2MemoryPercentOfTotal := none
  aheadRunwaySeconds := some 300
  requiredStartupRunwaySeconds := none
  supplyRateX := some 2
  supplyObservationSeconds := some 10
  clientGoodputBytesPerSecond := none
  clientGoodputConfident := false
  serverGoodputBytesPerSecond := none
  serverGoodputConfident := false
  nonRetryableError := none
  starvationRisk := false
  stalledRecoveryNeeded := false
  modeReady := none

/-- A worker that is well ahead is recommended a second thread, as over-supplied
and with both flags down. -/
theorem one_thread_over_supplied :
    (oneThread.classifyRoute2AdaptiveShadow asciiTables).recommendedThreads = 2
      ∧ (oneThread.classifyRoute2AdaptiveShadow asciiTables).currentThreads = 1
      ∧ (oneThread.classifyRoute2AdaptiveShadow asciiTables).bottleneckClass = .overSupplied
      ∧ ¬ oneThread.Safe (oneThread.classifyRoute2AdaptiveShadow asciiTables) := by
  have hthreads : (oneThread.classifyRoute2AdaptiveShadow asciiTables).recommendedThreads = 2
      ∧ (oneThread.classifyRoute2AdaptiveShadow asciiTables).currentThreads = 1
      ∧ (oneThread.classifyRoute2AdaptiveShadow asciiTables).bottleneckClass = .overSupplied := by
    decide +kernel
  obtain ⟨hrecommended, hcurrent, hclass⟩ := hthreads
  refine ⟨hrecommended, hcurrent, hclass, ?_⟩
  intro hsafe
  have hcpu := (hsafe.increase (by rw [hrecommended, hcurrent]; decide)).1
  rw [hclass] at hcpu
  cases hcpu

end AdaptiveControl
