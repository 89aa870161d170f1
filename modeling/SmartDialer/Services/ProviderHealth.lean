import SmartDialer.Lib.HostFloat
import SmartDialer.Model.Documents

/-!
# Provider health (`app/services/provider_health.py`)

One window of originate samples for each provider, trimmed from the front whenever it is written or
read, and the status that is derived from what is left. A reading of the monotonic clock is an
argument of the function that makes it.
-/

namespace SmartDialer

open HostFloat

variable {F : Type} [FloatArith F]

/-- The settings the manager reads. -/
structure HealthSettings (F : Type) [FloatOps F] where
  HEALTH_WINDOW_SECONDS : F := FloatOps.divInt 60 1
  HEALTH_MIN_SAMPLES : Int := 10
  UNHEALTHY_CONSECUTIVE_FAILURES : Int := 5
  UNHEALTHY_TIMEOUT_RATE : F := FloatOps.divInt 1 2
  DEGRADED_FAILURE_RATE : F := FloatOps.divInt 1 5
  DEGRADED_LATENCY_MS : F := FloatOps.divInt 3000 1

/-- `HEALTH_FACTORS`. -/
def healthFactors : ProviderHealthStatus → F
  | .HEALTHY => FloatOps.divInt 1 1
  | .DEGRADED => FloatOps.divInt 1 2
  | .UNHEALTHY => FloatOps.divInt 0 1

structure OriginateSample (F : Type) where
  recordedAt : F
  success : Bool
  timedOut : Bool
  latencyMs : Int
  deriving DecidableEq

structure ProviderHealth (F : Type) where
  providerName : String
  status : ProviderHealthStatus
  requestCount : Nat
  successRate : F
  failureRate : F
  timeoutRate : F
  p50LatencyMs : F
  p95LatencyMs : F
  consecutiveFailures : Nat
  eventsReceived : Nat
  lowConfidence : Bool
  computedAt : Time
  deriving DecidableEq

/-! ## Statistics of a window

Each is a function of the samples in the window. With no samples the success rate is 1, and the
other rates and the percentiles are 0. -/

/-- `l[index]`; a negative index counts from the end. -/
def item {α : Type} (l : List α) (index : Int) : Except String α :=
  let position := if index < 0 then index + l.length else index
  if position < 0 then .error "IndexError"
  else
    match l[position.toNat]? with
    | some x => .ok x
    | none => .error "IndexError"

/-- The index of `percentile` in `count` sorted values. -/
def percentileIndex (fraction : F) (count : Nat) : Except String Int :=
  (FloatArith.round (FloatOps.mul fraction (FloatOps.ofInt (count - 1)))).map (min (count - 1))

/-- `percentile`: the value at the rounded position, which Python rounds to the even neighbour at
ties. -/
def percentile (values : List F) (fraction : F) : Except String F := do
  if values.isEmpty then .ok (FloatOps.ofInt 0)
  else
    let ordered := values.mergeSort FloatOps.le
    let index ← percentileIndex fraction ordered.length
    item ordered index

namespace ProviderHealthManager

variable (settings : HealthSettings F) (samples : List (OriginateSample F))

/-- `_count_trailing_failures`. -/
def countTrailingFailures : Nat := (samples.reverse.takeWhile fun sample => !sample.success).length

def lowConfidence : Bool := decide ((samples.length : Int) < settings.HEALTH_MIN_SAMPLES)

def successRate : F :=
  if samples.length = 0 then FloatOps.ofInt 1
  else FloatOps.divInt (samples.countP fun sample => sample.success) samples.length

def failureRate : F :=
  if samples.length = 0 then FloatOps.ofInt 0
  else FloatArith.sub (FloatOps.ofInt 1) (successRate samples)

def timeoutRate : F :=
  if samples.length = 0 then FloatOps.ofInt 0
  else FloatOps.divInt (samples.countP fun sample => sample.timedOut) samples.length

def latencies : List F := samples.map fun sample => FloatOps.ofInt sample.latencyMs

/-- `_derive_status`. -/
def deriveStatus (failureRate timeoutRate : F) (consecutiveFailures : Nat) (p95LatencyMs : F)
    (lowConfidence : Bool) : ProviderHealthStatus :=
  if settings.UNHEALTHY_CONSECUTIVE_FAILURES ≤ consecutiveFailures then .UNHEALTHY
  else if !lowConfidence && FloatOps.lt settings.UNHEALTHY_TIMEOUT_RATE timeoutRate then .UNHEALTHY
  else if lowConfidence then .HEALTHY
  else if FloatOps.lt settings.DEGRADED_FAILURE_RATE failureRate then .DEGRADED
  else if FloatOps.lt settings.DEGRADED_LATENCY_MS p95LatencyMs then .DEGRADED
  else .HEALTHY

/-- The status of a window: the first part of `_compute_health`. -/
def statusOf : Except String ProviderHealthStatus := do
  let p95 ← percentile (latencies samples) (FloatOps.divInt 19 20)
  .ok (deriveStatus settings (failureRate samples) (timeoutRate samples)
    (countTrailingFailures samples) p95 (lowConfidence settings samples))

/-- The rest of `_compute_health`, once the status is known. -/
def describe (providerName : String) (eventsReceived : Nat) (computedAt : Time)
    (status : ProviderHealthStatus) : Except String (ProviderHealth F) := do
  let p50 ← percentile (latencies samples) (FloatOps.divInt 1 2)
  let p95 ← percentile (latencies samples) (FloatOps.divInt 19 20)
  .ok {
    providerName, status, requestCount := samples.length
    successRate := successRate samples
    failureRate := failureRate samples
    timeoutRate := timeoutRate samples
    p50LatencyMs := p50
    p95LatencyMs := p95
    consecutiveFailures := countTrailingFailures samples
    eventsReceived
    lowConfidence := lowConfidence settings samples
    computedAt }

/-- The answer of `get_health` when the computation has raised. -/
def fallback (providerName : String) (eventsReceived : Nat) (computedAt : Time) :
    ProviderHealth F where
  providerName
  status := .DEGRADED
  requestCount := 0
  successRate := FloatOps.ofInt 0
  failureRate := FloatOps.ofInt 0
  timeoutRate := FloatOps.ofInt 0
  p50LatencyMs := FloatOps.ofInt 0
  p95LatencyMs := FloatOps.ofInt 0
  consecutiveFailures := 0
  eventsReceived
  lowConfidence := true
  computedAt

/-- `_trim` at a clock reading. -/
def trim (now : F) (window : List (OriginateSample F)) : List (OriginateSample F) :=
  window.dropWhile fun sample =>
    FloatOps.lt sample.recordedAt (FloatArith.sub now settings.HEALTH_WINDOW_SECONDS)

end ProviderHealthManager

/-! ## The manager

Its dictionaries are functions with a default. Reading the health is a write, too: it trims. -/

/-- A provider that is no key of a dictionary has the default of its lookups. -/
structure ProviderHealthManager (F : Type) where
  samples : String → List (OriginateSample F) := fun _ => []
  eventsReceived : String → Nat := fun _ => 0
  lastStatus : String → Option ProviderHealthStatus := fun _ => none

namespace ProviderHealthManager

variable (settings : HealthSettings F) (m : ProviderHealthManager F)

/-- `record_originate`: the sample is stamped with one clock reading and the window trimmed at the
next. -/
def recordOriginate (providerName : String) (success timedOut : Bool) (latencyMs : Int)
    (recordedAt now : F) : ProviderHealthManager F :=
  let sample : OriginateSample F := { recordedAt, success, timedOut, latencyMs }
  let window := m.samples providerName ++ [sample]
  { m with samples := Function.update m.samples providerName (trim settings now window) }

def recordEventReceived (providerName : String) : ProviderHealthManager F :=
  { m with
    eventsReceived :=
      Function.update m.eventsReceived providerName (m.eventsReceived providerName + 1) }

/-- `_log_status_change`. -/
def logStatusChange (providerName : String) (status : ProviderHealthStatus) :
    ProviderHealthManager F :=
  if m.lastStatus providerName = some status then m
  else { m with lastStatus := Function.update m.lastStatus providerName (some status) }

/-- `_compute_health`. -/
def computeHealth (providerName : String) (now : F) (computedAt : Time) :
    Except String (ProviderHealth F) × ProviderHealthManager F :=
  let window := trim settings now (m.samples providerName)
  let m := { m with samples := Function.update m.samples providerName window }
  match statusOf settings window with
  | .error raised => (.error raised, m)
  | .ok status =>
    (describe settings window providerName (m.eventsReceived providerName) computedAt status,
      m.logStatusChange providerName status)

/-- `get_health`. -/
def getHealth (providerName : String) (now : F) (computedAt : Time) :
    ProviderHealth F × ProviderHealthManager F :=
  match m.computeHealth settings providerName now computedAt with
  | (.ok health, m) => (health, m)
  | (.error _, m) => (fallback providerName (m.eventsReceived providerName) computedAt, m)

/-- `should_allow_retry`: the retry gate is closed for an unhealthy provider only. -/
def shouldAllowRetry (providerName : String) (now : F) (computedAt : Time) :
    Bool × ProviderHealthManager F :=
  let (health, m) := m.getHealth settings providerName now computedAt
  (health.status ≠ .UNHEALTHY, m)

/-- `health_factor`. -/
def healthFactor (providerName : String) (now : F) (computedAt : Time) :
    F × ProviderHealthManager F :=
  let (health, m) := m.getHealth settings providerName now computedAt
  (healthFactors health.status, m)

end ProviderHealthManager

end SmartDialer
