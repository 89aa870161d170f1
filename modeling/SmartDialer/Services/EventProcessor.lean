import SmartDialer.Services.CallAllocator

/-!
# The event processor (`app/services/event_processor.py`)

The event is recorded first; a second recording ends the execution. What follows is one
conditional call transition, the agent transition it implies, and for a terminal state the
release of the borrower. Any exception in between is caught and written to the event record.
-/

namespace SmartDialer

open Concurrent

structure EventProcessingResult where
  status : EventProcessingStatus
  appliedTransition : Option String := none
  deriving DecidableEq

namespace EventProcessor

variable (cfg : Config)

/-- `EVENT_TYPE_TO_CALL_STATE.get(event_type)`. -/
def eventTypeToCallState : String → Option CallState
  | "RINGING" => some .RINGING
  | "ANSWERED" => some .ANSWERED
  | "CONNECTED" => some .CONNECTED
  | "COMPLETED" => some .COMPLETED
  | "FAILED" => some .FAILED
  | "CANCELLED" => some .CANCELLED
  | _ => none

/-- `IGNORED_APPLICABILITY_STATUS`. -/
def ignoredApplicabilityStatus : EventApplicability → EventProcessingStatus
  | .IGNORE_INVALID => .INVALID_IGNORED
  | _ => .STALE_IGNORED

/-- `AGENT_RELEASING_CALL_STATES`. -/
def agentReleasingCallStates : List CallState := [.COMPLETED, .FAILED, .CANCELLED]

def failureReason (event : ProviderEvent) (targetState : CallState) : Option String :=
  if targetState ≠ .FAILED then none
  else some (event.payloadReason.getD "provider_reported_failure")

/-- `_finish`. -/
def finish (event : ProviderEvent) (status : EventProcessingStatus)
    (appliedTransition : Option String := none) : Py EventProcessingResult := do
  call (.markProcessed event.providerName event.providerEventId status appliedTransition)
  pure { status, appliedTransition }

/-- `_apply_agent_transition`; the anomalies it logs change nothing. -/
def applyAgentTransition (updated : Call) (targetState : CallState) : Py Unit :=
  match CallSm.agentStateForCallState targetState with
  | none => pure ()
  | some agentState => do
    let agent ← call (.findAgentById updated.agentId)
    match agent with
    | none => pure ()
    | some agent =>
      if agent.state = agentState then pure ()
      else if targetState ∈ agentReleasingCallStates then do
        -- the release is by the worker of the call, and refused if he does not hold the agent
        let _ ← releaseAgent agent.id updated.createdByWorker agentState .EVENT_PROCESSOR
      else
        Prog.catching (do
          let _ ← transitionAgent agent.id agent.state agentState .EVENT_PROCESSOR
            agent.stateVersion) fun error =>
          if error.isStateMachineError then pure () else .raise error

/-- `_release_borrower`. -/
def releaseBorrower (updated : Call) (targetState : CallState) : Py Unit := do
  let answered := decide (targetState = .COMPLETED) && updated.answeredAt.isSome
  let _ ← call (.releaseBorrower updated.borrowerId updated.createdByWorker
    (RetryService.outcomeForTerminalCall answered)
    cfg.settings.MAX_CALL_ATTEMPTS cfg.settings.RETRY_BACKOFF_BASE_SECONDS)

/-- `_apply_event` once the call transition has been applied. -/
def settleEvent (event : ProviderEvent) (seen updated : Call) (targetState : CallState) :
    Py EventProcessingResult := do
  applyAgentTransition updated targetState
  (if targetState ∈ agentReleasingCallStates then releaseBorrower cfg updated targetState
    else pure ())
  finish event .PROCESSED (some s!"{seen.state.value}->{targetState.value}")

/-- `_apply_event`. -/
def applyEvent (event : ProviderEvent) : Py EventProcessingResult := do
  let seen ← call (.findByProviderCallId event.providerName event.providerCallId)
  match seen with
  | none => finish event .INVALID_IGNORED
  | some seen =>
    match eventTypeToCallState event.eventType with
    | none => finish event .INVALID_IGNORED
    | some targetState =>
      let applicability := CallSm.shouldApplyEvent seen.state targetState
      if applicability ≠ .APPLY then finish event (ignoredApplicabilityStatus applicability)
      else
        let updated ← call (.transitionCall seen.id targetState (failureReason event targetState))
        match updated with
        | none => finish event .STALE_IGNORED
        | some updated => settleEvent cfg event seen updated targetState

/-- `process_event`. -/
def processEvent (event : ProviderEvent) : Py EventProcessingResult := do
  let record ← call (.recordEvent event)
  match record with
  | .DUPLICATE => pure { status := .DUPLICATE_IGNORED }
  | .RECORDED =>
    (applyEvent cfg event).catching fun error =>
      if error.isException then
        finish event .INVALID_IGNORED (some s!"error:{error.typeName}")
      else .raise error

end EventProcessor

end SmartDialer
