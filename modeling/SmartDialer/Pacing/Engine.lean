import SmartDialer.Safety.SafetyController
import SmartDialer.Services.ProviderHealth

/-!
# The pacing engine (`app/pacing/`, `app/dialers/`)

A snapshot of the campaign, the answer rate estimated from it, and the number of calls to request.

Everything here is over a type of floats with its operations, so that the same definitions compute
with rational numbers in the results and stand for IEEE doubles in the program. What raises in
Python (a division by zero, a `timedelta` or a `floor` out of range) is an error here.
-/

namespace SmartDialer

open HostFloat

variable {F : Type} [FloatArith F]

/-! ## Answer rates (`answer_rate.py`)

Comparisons are written with the strictness of the source, which matters where a value is not a
number. -/

/-- `max(x, y)`: the first unless the second is greater. -/
def pyMax (x y : F) : F := if FloatOps.lt x y then y else x

/-- `min(x, y)`: the first unless the second is less. -/
def pyMin (x y : F) : F := if FloatOps.lt y x then y else x

def clamp (value minimum maximum : F) : F := pyMax minimum (pyMin maximum value)

/-- `observed_answer_rate`: no rate where no outcome has been counted. -/
def observedAnswerRate (answered total : Int) : Option F :=
  if total ≤ 0 then none else some (FloatOps.divInt answered total)

def RECENT_WEIGHT : F := FloatOps.divInt 7 10

def BASELINE_WEIGHT : F := FloatOps.divInt 3 10

/-- `blended_answer_rate`, clamped to the configured range. -/
def blendedAnswerRate (recentAnswerRate : Option F)
    (baselineAnswerRate minAnswerRate maxAnswerRate : F) : F :=
  let blended :=
    match recentAnswerRate with
    | none => baselineAnswerRate
    | some recent =>
      FloatArith.add (FloatOps.mul RECENT_WEIGHT recent)
        (FloatOps.mul BASELINE_WEIGHT baselineAnswerRate)
  clamp blended minAnswerRate maxAnswerRate

/-- `is_volatile`: without both rates nothing is known, and it is not volatile. -/
def isVolatile (recentAnswerRate previousAnswerRate : Option F) (threshold : F) : Bool :=
  match recentAnswerRate, previousAnswerRate with
  | some recent, some previous => FloatOps.lt threshold (FloatArith.abs (FloatArith.sub recent previous))
  | _, _ => false

/-! ## Snapshots (`metrics_snapshot.py`)

The builder keeps, per campaign, the number of free agents of the last snapshot, and it reads the
health of the provider through a manager that it shares with the rest of the process. -/

structure PacingSnapshot (F : Type) where
  campaignId : DocId
  mode : DialingMode
  availableAgents : Int
  reservedAgents : Int
  dialingAgents : Int
  connectedAgents : Int
  wrapUpAgents : Int
  longConnectedAgents : Int
  previousAvailableAgents : Int
  ringingCalls : Int
  initiatedCalls : Int
  activeCalls : Int
  recentAnswerRate : Option F
  previousAnswerRate : Option F
  baselineAnswerRate : F
  avgTalkTimeSeconds : F
  avgSetupTimeMs : F
  providerStatus : ProviderHealthStatus
  healthFactor : F
  capturedAt : Time

def PacingSnapshot.lowConfidence (snapshot : PacingSnapshot F) : Bool :=
  snapshot.recentAnswerRate.isNone

/-- The fields of a campaign that pacing reads. -/
structure PacedCampaign (F : Type) extends Campaign where
  dialingMode : DialingMode := .PROGRESSIVE
  baselineAnswerRate : F

namespace MetricsSnapshotBuilder

/-- `$avg` of the differences over the rows, 0 where there is no row. -/
def average (differences : List Int) : F :=
  if differences = [] then FloatOps.ofInt 0
  else FloatOps.divInt differences.sum differences.length

/-- `average_talk_time_seconds`. -/
def averageTalkTimeSeconds (campaignId : DocId) (calls : Calls) : Except String F :=
  let talks := (calls.coll.find fun d => d.campaignId = campaignId).filterMap fun d =>
    match d.answeredAt, d.endedAt with
    | some answered, some ended => some (ended - answered)
    | _, _ => none
  if talks = [] then .ok (FloatOps.ofInt 0)
  else FloatArith.div (average talks) (FloatOps.ofInt 1000)

/-- `average_setup_time_ms`. -/
def averageSetupTimeMs (campaignId : DocId) (calls : Calls) : F :=
  average ((calls.coll.find fun d => d.campaignId = campaignId).filterMap fun d =>
    match d.initiatedAt, d.ringingAt with
    | some initiated, some ringing => some (ringing - initiated)
    | _, _ => none)

/-- `count_connected_longer_than`. -/
def countConnectedLongerThan (campaignId : DocId) (olderThan : Time) (agents : Agents) : Nat :=
  (agents.find fun d =>
    d.campaignId = campaignId ∧ d.state = .CONNECTED ∧ d.stateChangedAt ≤ olderThan).length

/-- `timedelta(seconds=x)`. -/
def timedelta (x : F) : Except String Int :=
  match FloatOps.toMillis x with
  | some millis => .ok millis
  | none => .error "OverflowError"

/-- The agents connected for longer than a call takes on average. -/
def longConnected (campaignId : DocId) (now : Time) (avgTalkTime : F) (agents : Agents) :
    Except String Nat :=
  if FloatOps.lt (FloatOps.ofInt 0) avgTalkTime then
    (timedelta avgTalkTime).map fun talk => countConnectedLongerThan campaignId (now - talk) agents
  else .ok 0

end MetricsSnapshotBuilder

structure MetricsSnapshotBuilder (F : Type) where
  /-- `_previous_available`. -/
  previousAvailable : DocId → Option Int := fun _ => none
  health : ProviderHealthManager F := {}

/-- `build_snapshot`, with all queries answered by one state of the store. The health is read twice,
at `healthRead` and `factorRead` on the monotonic clock. -/
def MetricsSnapshotBuilder.buildSnapshot (settings : HealthSettings F)
    (answerRateWindowSeconds : F) (campaign : PacedCampaign F) (now : Time)
    (healthRead factorRead : F) (σ : Store) (builder : MetricsSnapshotBuilder F) :
    Except String (PacingSnapshot F × MetricsSnapshotBuilder F) := do
  let agentCounts := AgentRepo.countByState campaign.id σ.agents
  let callCounts := CallRepo.countByState campaign.id σ.calls
  let avgTalkTime ← averageTalkTimeSeconds campaign.id σ.calls
  let avgSetupTime := averageSetupTimeMs campaign.id σ.calls
  let window ← timedelta answerRateWindowSeconds
  let recent := CallRepo.outcomeCountsBetween campaign.id (now - window) now σ.calls
  let previous :=
    CallRepo.outcomeCountsBetween campaign.id (now - window * 2) (now - window) σ.calls
  let longConnected ← longConnected campaign.id now avgTalkTime σ.agents
  let availableAgents : Int := agentCounts .AVAILABLE
  let previousAvailable := (builder.previousAvailable campaign.id).getD availableAgents
  let (health, manager) := builder.health.getHealth settings campaign.providerName healthRead now
  let (factor, manager) := manager.healthFactor settings campaign.providerName factorRead now
  .ok ({
    campaignId := campaign.id
    mode := campaign.dialingMode
    availableAgents
    reservedAgents := agentCounts .RESERVED
    dialingAgents := agentCounts .DIALING
    connectedAgents := agentCounts .CONNECTED
    wrapUpAgents := agentCounts .WRAP_UP
    longConnectedAgents := longConnected
    previousAvailableAgents := previousAvailable
    ringingCalls := callCounts .RINGING
    initiatedCalls := callCounts .INITIATED
    activeCalls := callCounts .RINGING + callCounts .INITIATED
    recentAnswerRate := observedAnswerRate recent.answered recent.total
    previousAnswerRate := observedAnswerRate previous.answered previous.total
    baselineAnswerRate := campaign.baselineAnswerRate
    avgTalkTimeSeconds := avgTalkTime
    avgSetupTimeMs := avgSetupTime
    providerStatus := health.status
    healthFactor := factor
    capturedAt := now },
    { previousAvailable :=
        Function.update builder.previousAvailable campaign.id (some availableAgents)
      health := manager })

/-! ## The engine (`pacing_engine.py`)

A request carries the numbers it was computed from and an explanation in words; both are stored with
the decision. An error of the computation is itself turned into a request, for no calls. -/

structure PacingEngineConfig (F : Type) where
  soonFreeWeight : F
  safetyMargin : F
  minAnswerRate : F
  maxAnswerRate : F
  volatilityThreshold : F
  volatilityFactor : F
  maxRequestPerTick : Int
  forcedAnswerRate : Option F := none

section Engine

variable (snapshot : PacingSnapshot F) (config : PacingEngineConfig F)

def effectiveAnswerRate : F :=
  match config.forcedAnswerRate with
  | some rate => rate
  | none =>
    blendedAnswerRate snapshot.recentAnswerRate snapshot.baselineAnswerRate config.minAnswerRate
      config.maxAnswerRate

def soonFreeAgents : Int := snapshot.wrapUpAgents + snapshot.longConnectedAgents

def freeCapacity : F :=
  FloatArith.add (FloatOps.ofInt snapshot.availableAgents)
    (FloatOps.mul (FloatOps.ofInt (soonFreeAgents snapshot)) config.soonFreeWeight)

def inFlight : Int := snapshot.ringingCalls + snapshot.initiatedCalls + snapshot.reservedAgents

def volatile : Bool :=
  isVolatile snapshot.recentAnswerRate snapshot.previousAnswerRate config.volatilityThreshold

def volatilityFactorOf : F :=
  if volatile snapshot config then config.volatilityFactor else FloatOps.divInt 1 1

/-- `_explain`. -/
def explain (callsNeeded : F) (rawRequest requested : Int) : String :=
  let weighted := FloatOps.mul (FloatOps.ofInt (soonFreeAgents snapshot)) config.soonFreeWeight
  let percent := FloatOps.mul (effectiveAnswerRate snapshot config) (FloatOps.ofInt 100)
  toString snapshot.availableAgents ++ " agents free + " ++ toString (soonFreeAgents snapshot)
    ++ " soon-free (weighted " ++ FloatArith.general weighted ++ ") = "
    ++ FloatArith.general (freeCapacity snapshot config) ++ " capacity; at "
    ++ FloatArith.fixed percent ++ "% estimated answer rate that needs "
    ++ FloatArith.fixed callsNeeded ++ " calls; " ++ toString (inFlight snapshot)
    ++ " already in flight leaves " ++ toString rawRequest ++ "; x"
    ++ FloatArith.general config.safetyMargin ++ " safety margin x"
    ++ FloatArith.general snapshot.healthFactor ++ " health x"
    ++ FloatArith.general (volatilityFactorOf snapshot config) ++ " volatility = "
    ++ toString requested ++ " requested."

/-- The `inputs` of a request. -/
def inputsOf (callsNeeded : F) (rawRequest requested : Int) : List (String × InputValue F) :=
  [("available_agents", .int snapshot.availableAgents),
    ("reserved_agents", .int snapshot.reservedAgents),
    ("wrap_up_agents", .int snapshot.wrapUpAgents),
    ("long_connected_agents", .int snapshot.longConnectedAgents),
    ("soon_free_agents", .int (soonFreeAgents snapshot)),
    ("soon_free_weight", .float config.soonFreeWeight),
    ("free_capacity", .float (freeCapacity snapshot config)),
    ("ringing_calls", .int snapshot.ringingCalls),
    ("initiated_calls", .int snapshot.initiatedCalls),
    ("active_calls", .int snapshot.activeCalls),
    ("in_flight", .int (inFlight snapshot)),
    ("historical_answer_rate", (snapshot.recentAnswerRate.map InputValue.float).getD .none),
    ("baseline_answer_rate", .float snapshot.baselineAnswerRate),
    ("effective_answer_rate", .float (effectiveAnswerRate snapshot config)),
    ("avg_talk_time_seconds", .float snapshot.avgTalkTimeSeconds),
    ("avg_setup_time_ms", .float snapshot.avgSetupTimeMs),
    ("provider_status", .str snapshot.providerStatus.value),
    ("health_factor", .float snapshot.healthFactor),
    ("volatility_factor", .float (volatilityFactorOf snapshot config)),
    ("safety_margin", .float config.safetyMargin),
    ("calls_needed", .float callsNeeded),
    ("raw_request", .int rawRequest),
    ("requested", .int requested),
    ("low_confidence", .bool snapshot.lowConfidence)]

/-- `_compute`. -/
def compute : Except String (PacingRequest F) := do
  let callsNeeded ← FloatArith.div (freeCapacity snapshot config)
    (effectiveAnswerRate snapshot config)
  let rawRequest ← FloatArith.floor
    (pyMax (FloatOps.ofInt 0) (FloatArith.sub callsNeeded (FloatOps.ofInt (inFlight snapshot))))
  let scaled := FloatOps.mul (FloatOps.mul
    (FloatOps.mul (FloatOps.ofInt rawRequest) config.safetyMargin) snapshot.healthFactor)
    (volatilityFactorOf snapshot config)
  let whole ← FloatArith.floor scaled
  let requested := min whole config.maxRequestPerTick
  .ok {
    requested
    mode := snapshot.mode
    snapshotCapturedAt := snapshot.capturedAt
    inputs := inputsOf snapshot config callsNeeded rawRequest requested
    explanation := explain snapshot config callsNeeded rawRequest requested }

/-- `compute_request`. -/
def computeRequest : PacingRequest F :=
  match compute snapshot config with
  | .ok request => request
  | .error raised => {
      requested := 0
      mode := snapshot.mode
      snapshotCapturedAt := snapshot.capturedAt
      inputs := [("pacing_error", .str raised)]
      explanation := "Pacing calculation failed, requesting no additional calls." }

end Engine

/-! ## The engine configurations (`app/dialers/`)

The two dialing modes differ in their configurations only. -/

/-- The settings the dialers read. -/
structure PacingSettings (F : Type) [FloatOps F] where
  SOON_FREE_WEIGHT : F := FloatOps.divInt 1 2
  SAFETY_MARGIN : F := FloatOps.divInt 17 20
  MIN_ANSWER_RATE : F := FloatOps.divInt 1 20
  MAX_ANSWER_RATE : F := FloatOps.divInt 19 20
  VOLATILITY_THRESHOLD : F := FloatOps.divInt 3 20
  VOLATILITY_FACTOR : F := FloatOps.divInt 3 5
  MAX_REQUEST_PER_TICK : Int := 50

/-- `DialerBase.engine_config`; `PredictiveDialer` takes it as it is. -/
def DialerBase.engineConfig (settings : PacingSettings F) : PacingEngineConfig F where
  soonFreeWeight := settings.SOON_FREE_WEIGHT
  safetyMargin := settings.SAFETY_MARGIN
  minAnswerRate := settings.MIN_ANSWER_RATE
  maxAnswerRate := settings.MAX_ANSWER_RATE
  volatilityThreshold := settings.VOLATILITY_THRESHOLD
  volatilityFactor := settings.VOLATILITY_FACTOR
  maxRequestPerTick := settings.MAX_REQUEST_PER_TICK

def PROGRESSIVE_ANSWER_RATE : F := FloatOps.divInt 1 1

def PROGRESSIVE_SAFETY_MARGIN : F := FloatOps.divInt 1 1

def PROGRESSIVE_SOON_FREE_WEIGHT : F := FloatOps.divInt 0 1

/-- `ProgressiveDialer.engine_config`. -/
def ProgressiveDialer.engineConfig (settings : PacingSettings F) : PacingEngineConfig F :=
  { DialerBase.engineConfig settings with
    forcedAnswerRate := some PROGRESSIVE_ANSWER_RATE
    safetyMargin := PROGRESSIVE_SAFETY_MARGIN
    soonFreeWeight := PROGRESSIVE_SOON_FREE_WEIGHT }

end SmartDialer
