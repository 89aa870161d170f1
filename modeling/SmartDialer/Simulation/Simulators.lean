import SmartDialer.Workers.DialerWorker

/-!
# Providers, agents and faults as the simulation plays them

The delivery task of a provider (`app/providers/mock_base.py`), the simulated agents
(`app/simulation/agent_simulator.py`) and the event bursts of the fault injector
(`app/simulation/fault_injector.py`), as programs.

Where the source waits, between two events or two heartbeats, other processes may go on; so each
loop is a program whose operations may be interleaved with anything.
-/

namespace SmartDialer

open Concurrent HostFloat

variable {F : Type}

/-! ## Events

A delivery hands each event to the callback of the application, which counts it and processes it.
The bursts call the processor themselves. -/

/-- The `on_event` callback. -/
def onEvent (cfg : Config) (event : ProviderEvent) : PlatformPy F EventProcessingResult := do
  ask (.recordEventReceived event.providerName)
  dialer F (EventProcessor.processEvent cfg event)

/-- The loop of `_deliver_events`. -/
def MockProvider.deliverEvents (cfg : Config) : List ProviderEvent → PlatformPy F Unit
  | [] => pure ()
  | event :: events => do
    let _ ← onEvent cfg event
    MockProvider.deliverEvents cfg events

namespace FaultInjector

/-- `_replayable_events`. -/
def replayableEvents : Option String → PlatformPy F (List ProviderEvent)
  | none => ask (.findLatest 20)
  | some providerCallId => ask (.findProviderEventsForCall providerCallId)

/-- The loop of a burst, with the results it throws away. -/
def replay (cfg : Config) : List ProviderEvent → PlatformPy F (List EventProcessingResult)
  | [] => pure []
  | event :: events => do
    let result ← dialer F (EventProcessor.processEvent cfg event)
    let results ← replay cfg events
    pure (result :: results)

/-- `duplicate_event_burst`. -/
def duplicateEventBurst (cfg : Config) (providerCallId : Option String) :
    PlatformPy F (List EventProcessingResult) := do
  let events ← replayableEvents providerCallId
  replay cfg events

/-- `out_of_order_burst`. -/
def outOfOrderBurst (cfg : Config) (providerCallId : Option String) :
    PlatformPy F (List EventProcessingResult) := do
  let events ← replayableEvents providerCallId
  replay cfg events.reverse

end FaultInjector

/-! ## Agents

The simulated agents act by their own reading of the campaign, which may be out of date by the time
they write; the version in the filter of `transition_agent` is what such a write fails on. -/

namespace AgentSimulator

/-- The loop of `log_everyone_in`. -/
def logInLoop : List Agent → Nat → PlatformPy F Nat
  | [], loggedIn => pure loggedIn
  | agent :: agents, loggedIn =>
    if agent.state ≠ .OFFLINE then logInLoop agents loggedIn
    else do
      let updated ← dialer F
        (transitionAgent agent.id .OFFLINE .AVAILABLE .AGENT agent.stateVersion)
      match updated with
      | none => logInLoop agents loggedIn
      | some _ => do
        let _ ← dialer F (call (.heartbeat agent.id))
        logInLoop agents (loggedIn + 1)

/-- `log_everyone_in`. -/
def logEveryoneIn (campaignId : DocId) : PlatformPy F Nat := do
  let agents ← ask (.findForCampaign campaignId 10000)
  logInLoop agents 0

/-- The loop of `take_agents_offline`. -/
def takeOfflineLoop (count : Int) : List Agent → Nat → PlatformPy F Nat
  | [], removed => pure removed
  | agent :: agents, removed =>
    if removed ≥ count then pure removed
    else if agent.state ≠ .AVAILABLE then takeOfflineLoop count agents removed
    else do
      let updated ← dialer F
        (transitionAgent agent.id .AVAILABLE .OFFLINE .AGENT agent.stateVersion)
      match updated with
      | none => takeOfflineLoop count agents removed
      | some _ => takeOfflineLoop count agents (removed + 1)

/-- `take_agents_offline`. -/
def takeAgentsOffline (campaignId : DocId) (count : Int) : PlatformPy F Nat := do
  let agents ← ask (.findForCampaign campaignId 10000)
  takeOfflineLoop count agents 0

/-- The inner loop of `_heartbeat_loop`. -/
def beatLoop : List Agent → PlatformPy F Unit
  | [] => pure ()
  | agent :: agents =>
    if agent.state ≠ .OFFLINE then do
      let _ ← dialer F (call (.heartbeat agent.id))
      beatLoop agents
    else beatLoop agents

/-- The first `n` rounds of `_heartbeat_loop`. -/
def heartbeats (campaignId : DocId) : Nat → PlatformPy F Unit
  | 0 => pure ()
  | n + 1 => do
    let agents ← ask (.findForCampaign campaignId 10000)
    beatLoop agents
    heartbeats campaignId n

end AgentSimulator

end SmartDialer
