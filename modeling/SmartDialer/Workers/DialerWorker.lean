import SmartDialer.Platform.Operations

/-!
# The dialer worker (`app/workers/dialer_worker.py`)

A worker process ticks every running campaign, round after round: a snapshot taken query by query, a
pacing request, its row in the decision log, and then the tick of the dialer and the wrap-up timer.
What fails in one campaign is caught there.
-/

namespace SmartDialer

open Concurrent HostFloat

/-- The settings of a process. -/
structure PlatformConfig (F : Type) [FloatArith F] where
  cfg : Config := {}
  safety : SafetySettings F := {}
  pacing : PacingSettings F := {}

section Exceptions

variable {F : Type}

/-- `except Exception`. -/
def exceptException {α : Type} (x : PlatformPy F α) (handled : α) : PlatformPy F α :=
  x.catching fun e => if e.isException then pure handled else .raise e

/-- A computation that may raise. -/
def raising {α : Type} : Except String α → PlatformPy F α
  | .ok a => .ret a
  | .error raised => .raise (.other raised)

end Exceptions

variable {F : Type} [FloatArith F]

/-! ## Snapshots, query by query

Between two queries other workers move, so the counts of a snapshot may belong to different stores. -/

namespace MetricsSnapshotBuilder

/-- The `if` of `build_snapshot`. -/
def queryLongConnected (campaignId : DocId) (now : Time) (avgTalkTime : F) : PlatformPy F Nat :=
  if FloatOps.lt (FloatOps.ofInt 0) avgTalkTime then do
    let talk ← raising (timedelta avgTalkTime)
    ask (.countConnectedLongerThan campaignId (now - talk))
  else pure 0

/-- `build_snapshot`, as it is performed. -/
def querySnapshot (settings : SafetySettings F) (workerId : WorkerId)
    (campaign : PacedCampaign F) : PlatformPy F (PacingSnapshot F) := do
  let now ← dialer F (call .utcNow)
  let agentCounts ← dialer F (call (.countAgentsByState campaign.id))
  let callCounts ← dialer F (call (.countCallsByState campaign.id))
  let avgTalkTime ← ask (.averageTalkTimeSeconds campaign.id)
  let avgSetupTime ← ask (.averageSetupTimeMs campaign.id)
  let window ← raising (timedelta settings.ANSWER_RATE_WINDOW_SECONDS)
  let recent ← dialer F (call (.outcomeCountsBetween campaign.id (now - window) now))
  let previous ← dialer F
    (call (.outcomeCountsBetween campaign.id (now - window * 2) (now - window)))
  let longConnected ← queryLongConnected campaign.id now avgTalkTime
  let availableAgents : Int := agentCounts .AVAILABLE
  let previousAvailable ← ask (.exchangeAvailable workerId campaign.id availableAgents)
  let health ← dialer F (call (.getHealth campaign.providerName))
  let healthFactor ← ask (.healthFactor campaign.providerName)
  pure {
    campaignId := campaign.id
    mode := campaign.dialingMode
    availableAgents
    reservedAgents := agentCounts .RESERVED
    dialingAgents := agentCounts .DIALING
    connectedAgents := agentCounts .CONNECTED
    wrapUpAgents := agentCounts .WRAP_UP
    longConnectedAgents := longConnected
    previousAvailableAgents := previousAvailable
    ringingCalls := callCounts .RINGING
    initiatedCalls := callCounts .INITIATED
    activeCalls := callCounts .RINGING + callCounts .INITIATED
    recentAnswerRate := observedAnswerRate recent.answered recent.total
    previousAnswerRate := observedAnswerRate previous.answered previous.total
    baselineAnswerRate := campaign.baselineAnswerRate
    avgTalkTimeSeconds := avgTalkTime
    avgSetupTimeMs := avgSetupTime
    providerStatus := health
    healthFactor := healthFactor
    capturedAt := now }

end MetricsSnapshotBuilder

/-! ## Ticks

One campaign after another; an exception ends the tick of its campaign, and a cancellation the whole
round. -/

/-- `ModeRouter.select`, and the `engine_config` of the dialer it selects. -/
def ModeRouter.engineConfig (settings : PacingSettings F) : DialingMode → PacingEngineConfig F
  | .PROGRESSIVE => ProgressiveDialer.engineConfig settings
  | .PREDICTIVE => DialerBase.engineConfig settings

/-- The pacing decision of a tick that is not idle. -/
def DialerBase.recordRequest (campaignId : DocId) (request : PacingRequest F) :
    PlatformPy F (Option DocId) :=
  if request.requested = 0 then pure none
  else do
    let decisionId ← ask (.recordPacingRequest campaignId request)
    pure (some decisionId)

/-- `tick`, from the snapshot on. -/
def DialerBase.tickCampaign (pc : PlatformConfig F) (engine : PacingEngineConfig F)
    (campaign : PacedCampaign F) (workerId : WorkerId) : PlatformPy F (TickResult F) := do
  let snapshot ← MetricsSnapshotBuilder.querySnapshot pc.safety workerId campaign
  let request := computeRequest snapshot engine
  let pacingDecisionId ← DialerBase.recordRequest campaign.id request
  let tracker ← ask (.availabilityTracker workerId)
  dialer F (DialerBase.tick pc.safety pc.cfg tracker campaign.toCampaign request pacingDecisionId
    workerId)

namespace DialerWorker

variable (pc : PlatformConfig F) (workerId : WorkerId)

/-- The `try` of `_tick_campaign`. -/
def tickAndWrapUp (campaign : PacedCampaign F) : PlatformPy F Unit := do
  let _ ← DialerBase.tickCampaign pc (ModeRouter.engineConfig pc.pacing campaign.dialingMode)
    campaign workerId
  dialer F (WrapUpService.releaseFinishedWrapUps pc.cfg campaign.toCampaign)

/-- `_tick_campaign`. -/
def tickCampaign (campaign : PacedCampaign F) : PlatformPy F Unit :=
  exceptException (tickAndWrapUp pc workerId campaign) ()

/-- The loop of `run_once`. -/
def tickLoop : List (CampaignDocument F) → PlatformPy F Unit
  | [] => pure ()
  | campaign :: campaigns => do
    tickCampaign pc workerId campaign.toPacedCampaign
    tickLoop campaigns

/-- `run_once`. -/
def runOnce : PlatformPy F Unit := do
  let campaigns ← ask (.findRunning 100)
  tickLoop pc workerId campaigns

/-- `_run`, when it is told to stop after `n` rounds. -/
def run : Nat → PlatformPy F Unit
  | 0 => pure ()
  | n + 1 => do
    exceptException (runOnce pc workerId) ()
    run n

end DialerWorker

/-- The first `n` rounds of the recovery worker's `_run`. -/
def RecoveryWorker.run (pc : PlatformConfig F) : Nat → PlatformPy F Unit
  | 0 => pure ()
  | n + 1 => do
    exceptException (do
      let _ ← dialer F (RecoveryWorker.runSweeps pc.cfg)
      pure ()) ()
    RecoveryWorker.run pc n

end SmartDialer
