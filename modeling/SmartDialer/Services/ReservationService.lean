import SmartDialer.Model.Operations

/-!
# Reserving a pair (`app/services/reservation_service.py`)

Claim an agent, then a borrower, and give the agent back when there is no borrower. The two
candidate loops try each candidate once, in the order the query returned them.
-/

namespace SmartDialer

open Concurrent

structure ReservationPair where
  campaignId : DocId
  workerId : WorkerId
  agent : Agent
  borrower : Borrower
  deriving DecidableEq

/-- What the components are built with: the settings and the registered provider names. -/
structure Config where
  settings : Settings := {}
  providers : List String := ["mock_a", "mock_b"]

/-- `ProviderRegistry.get`. -/
def providerRegistryGet (cfg : Config) (name : String) : Py Unit :=
  if name ∈ cfg.providers then pure () else .raise (.providerUnavailable name)

/-- `AgentRepository.find_claimable_agents`. -/
def findClaimableAgents (campaignId : DocId) (needed : Int) : Py (List Agent) :=
  if candidateWindow needed = 0 then pure []
  else call (.findClaimableAgents campaignId (candidateWindow needed))

/-- `BorrowerRepository.find_claimable_borrowers`. -/
def findClaimableBorrowers (campaignId : DocId) (needed : Int) : Py (List Borrower) :=
  if candidateWindow needed = 0 then pure []
  else call (.findClaimableBorrowers campaignId (candidateWindow needed))

/-- `AgentRepository.release_agent`. -/
def releaseAgent (agentId : DocId) (workerId : WorkerId) (targetState : AgentState)
    (actor : TransitionActor) : Py (Option Agent) :=
  if AgentSm.allowedSources targetState actor = [] then pure none
  else call (.releaseAgent agentId workerId targetState actor)

/-- `validate_transition`. -/
def validateTransition (current target : AgentState) (actor : TransitionActor) : Py Unit :=
  if !AgentSm.canTransition current target then
    .raise (.invalidStateTransition current target actor)
  else if !AgentSm.isActorAllowed current target actor then
    .raise (.unauthorizedTransitionActor current target actor)
  else pure ()

/-- `AgentRepository.transition_agent`. -/
def transitionAgent (agentId : DocId) (fromState toState : AgentState) (actor : TransitionActor)
    (expectedVersion : Nat) : Py (Option Agent) := do
  validateTransition fromState toState actor
  call (.transitionAgent agentId fromState toState actor expectedVersion)

namespace ReservationService

variable (cfg : Config)

/-- `_release_agent`. -/
def releaseAgent (agentId : DocId) (workerId : WorkerId) : Py Unit := do
  let _ ← SmartDialer.releaseAgent agentId workerId .AVAILABLE .ALLOCATOR

/-- The loop of `_claim_agent`. -/
def claimAgentFrom (campaignId : DocId) (workerId : WorkerId) : List Agent → Py (Option Agent)
  | [] => pure none
  | candidate :: candidates => do
    let agent ← call (.tryReserveAgent campaignId candidate.id workerId
      cfg.settings.RESERVATION_TTL_SECONDS)
    match agent with
    | some agent => pure (some agent)
    | none => claimAgentFrom campaignId workerId candidates

/-- `_claim_agent`. -/
def claimAgent (campaignId : DocId) (workerId : WorkerId) : Py (Option Agent) := do
  let candidates ← findClaimableAgents campaignId 1
  claimAgentFrom cfg campaignId workerId candidates

/-- The loop of `_claim_borrower`. -/
def claimBorrowerFrom (campaignId : DocId) (workerId : WorkerId) :
    List Borrower → Py (Option Borrower)
  | [] => pure none
  | candidate :: candidates => do
    let borrower ← call (.tryReserveBorrower campaignId candidate.id workerId
      cfg.settings.RESERVATION_TTL_SECONDS)
    match borrower with
    | some borrower => pure (some borrower)
    | none => claimBorrowerFrom campaignId workerId candidates

/-- `_claim_borrower`. -/
def claimBorrower (campaignId : DocId) (workerId : WorkerId) : Py (Option Borrower) := do
  let candidates ← findClaimableBorrowers campaignId 1
  claimBorrowerFrom cfg campaignId workerId candidates

/-- `reserve_pair`. -/
def reservePair (campaignId : DocId) (workerId : WorkerId) : Py (Option ReservationPair) := do
  let agent ← claimAgent cfg campaignId workerId
  match agent with
  | none => pure none
  | some agent =>
    let borrower ← (claimBorrower cfg campaignId workerId).catching fun error =>
      if error.isPyMongoError then do
        releaseAgent agent.id workerId
        .raise error
      else .raise error
    match borrower with
    | none => do
      releaseAgent agent.id workerId
      pure none
    | some borrower => pure (some { campaignId, workerId, agent, borrower })

/-- `release_pair`. -/
def releasePair (pair : ReservationPair) (outcome : BorrowerReleaseOutcome) : Py Unit := do
  releaseAgent pair.agent.id pair.workerId
  let _ ← call (.releaseBorrower pair.borrower.id pair.workerId outcome
    cfg.settings.MAX_CALL_ATTEMPTS cfg.settings.RETRY_BACKOFF_BASE_SECONDS)

end ReservationService

end SmartDialer
