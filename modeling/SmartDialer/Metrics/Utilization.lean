import SmartDialer.Lib.HostFloat
import SmartDialer.Repositories.AgentRepo

/-!
# Agent utilization (`app/metrics/utilization.py`)

The stored counters and the time the agent has been in its present state, as ratios.

Sums over several agents are ratios of sums, not means of ratios.
-/

namespace SmartDialer

open HostFloat

namespace Utilization

variable (F : Type) [FloatOps F]

/-- `UTILIZATION_DENOMINATOR_STATES`. -/
def denominatorStates : List AgentState := [.AVAILABLE, .RESERVED, .DIALING, .CONNECTED, .WRAP_UP]

/-- `_ratio`. -/
def ratio (numerator denominator : Int) : Option F :=
  if denominator ≤ 0 then none else some (FloatOps.divInt numerator denominator)

/-- `elapsed_in_current_state_ms`. -/
def elapsedInCurrentStateMs (agent : Agent) (now : Time) : Option Int :=
  if agent.state ∉ denominatorStates then some 0
  else wholeMillis F (now - agent.stateChangedAt)

/-- `_live_totals`: connected, productive and counted time. -/
def liveTotals (agent : Agent) (now : Time) : Option (Int × Int × Int) :=
  (elapsedInCurrentStateMs F agent now).map fun elapsed =>
    let connected :=
      agent.connectedTimeMs + if agent.state = .CONNECTED then elapsed else 0
    let wrapUp := agent.wrapUpTimeMs + if agent.state = .WRAP_UP then elapsed else 0
    (connected, connected + wrapUp, agent.busyTimeMs + agent.availableTimeMs + elapsed)

structure AgentUtilization where
  agentId : DocId
  connectedTimeMs : Int
  productiveTimeMs : Int
  countedTimeMs : Int
  talkUtilization : Option F
  productiveUtilization : Option F

/-- `agent_utilization`. -/
def agentUtilization (agent : Agent) (now : Time) : Option (AgentUtilization F) :=
  (liveTotals F agent now).map fun (connected, productive, counted) =>
    { agentId := agent.id
      connectedTimeMs := connected
      productiveTimeMs := productive
      countedTimeMs := counted
      talkUtilization := ratio F connected counted
      productiveUtilization := ratio F productive counted }

structure CampaignUtilization where
  connectedTimeMs : Int
  productiveTimeMs : Int
  countedTimeMs : Int
  talkUtilization : Option F
  productiveUtilization : Option F
  agentsCounted : Nat

/-- `campaign_utilization`. -/
def campaignUtilization (agents : List Agent) (now : Time) : Option (CampaignUtilization F) :=
  (agents.mapM fun agent => liveTotals F agent now).map fun totals =>
    let connected := (totals.map fun item => item.1).sum
    let productive := (totals.map fun item => item.2.1).sum
    let counted := (totals.map fun item => item.2.2).sum
    { connectedTimeMs := connected
      productiveTimeMs := productive
      countedTimeMs := counted
      talkUtilization := ratio F connected counted
      productiveUtilization := ratio F productive counted
      agentsCounted := agents.length }

end Utilization

end SmartDialer
