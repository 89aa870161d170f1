import SmartDialer.Services.CallAllocator

/-!
# What agents and timers do (`app/api/routes_agents.py`, `app/workers/dialer_worker.py`)

The action endpoint reads the agent and applies one transition at the version it has read. The
dialer worker's wrap-up timer does the same for every agent whose wrap-up time is over.
-/

namespace SmartDialer

open Concurrent

namespace AgentActions

/-- `AGENT_ACTIONS.get(action)`. -/
def agentActions : String → Option AgentState
  | "login" => some .AVAILABLE
  | "logout" => some .OFFLINE
  | "pause" => some .PAUSED
  | "resume" => some .AVAILABLE
  | _ => none

/-- `agent_action`. -/
def agentAction (agentId : DocId) (action : String) : Py (Option Agent) := do
  let agent ← call (.findAgentById agentId)
  match agent with
  | none => .raise (.notFound "agent" agentId.val)
  | some agent =>
    if action = "heartbeat" then do
      let _ ← call (.heartbeat agent.id)
      call (.findAgentById agent.id)
    else
      match agentActions action with
      | none => .raise (.notFound "agent action" action)
      | some target => do
        let updated ← transitionAgent agent.id agent.state target .AGENT agent.stateVersion
        match updated with
        | none => .raise (.conflict
            s!"Agent {agentId.val} changed state before the {action} could be applied")
        | some updated =>
          if action = "login" then do
            let _ ← call (.heartbeat agent.id)
            call (.findAgentById agent.id)
          else pure (some updated)

end AgentActions

namespace WrapUpService

variable (cfg : Config)

def wrapUpSweepLimit : Int := 500

/-- `find_finished_wrap_ups`. -/
def findFinishedWrapUps (campaignId : DocId) : Py (List Agent) := do
  let now ← call .utcNow
  call (.findExpiredWrapUps (now - seconds cfg.settings.WRAP_UP_SECONDS) wrapUpSweepLimit
    (some campaignId))

/-- The loop of `_release_finished_wrap_ups`. -/
def releaseLoop : List Agent → Py Unit
  | [] => pure ()
  | agent :: agents => do
    let _ ← transitionAgent agent.id .WRAP_UP .AVAILABLE .WORKER_TIMER agent.stateVersion
    releaseLoop agents

/-- `_release_finished_wrap_ups`. -/
def releaseFinishedWrapUps (campaign : Campaign) : Py Unit := do
  let agents ← findFinishedWrapUps cfg campaign.id
  releaseLoop agents

end WrapUpService

end SmartDialer
