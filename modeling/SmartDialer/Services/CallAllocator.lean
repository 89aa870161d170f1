import SmartDialer.Services.ReservationService

/-!
# The call allocator (`app/services/call_allocator.py`)

`allocate` turns an approved number into dials: reserve a pair, create the call, move it to
`INITIATED`, take the agent to `DIALING`, originate, and record the provider's id. Every way
out of `dial` before that last step gives the pair back.
-/

namespace SmartDialer

open Concurrent

def maxConsecutiveContentions : Nat := 3

structure AllocationResult where
  attempted : Nat
  allocated : Nat
  failed : Nat
  contended : Nat
  deriving DecidableEq

/-- `int(x)`: truncation toward zero. -/
def truncate (x : ℚ) : Int := x.num.tdiv x.den

namespace RetryService

variable (cfg : Config)

/-- `should_retry`. -/
def shouldRetry (borrower : Borrower) (providerName : String) : Py Bool := do
  if (borrower.attemptCount : Int) ≥ cfg.settings.MAX_CALL_ATTEMPTS then pure false
  else
    let now ← call .utcNow
    if borrower.nextEligibleAt > now then pure false
    else call (.shouldAllowRetry providerName)

/-- `outcome_for_terminal_call`. -/
def outcomeForTerminalCall (answered : Bool) : BorrowerReleaseOutcome :=
  if answered then .CONTACTED else .RETRY

end RetryService

namespace CallRepo

/-- `CallRepository.create_call`: the insertion, or the call that already has the key. -/
def createCall (draft : CallDraft) : Py Call :=
  Prog.catching (call (.insertCall draft)) fun error =>
    match error with
    | .duplicateKey => do
      let existing ← call (.findCallByIdempotencyKey draft.idempotencyKey)
      match existing with
      | some existing => pure existing
      | none => .raise .validationError
    | error => .raise error

end CallRepo

namespace CallAllocator

variable (cfg : Config)

/-- `_reserve_pair`. -/
def reservePair (campaignId : DocId) (workerId : WorkerId) : Py (Option ReservationPair) :=
  (ReservationService.reservePair cfg campaignId workerId).catching fun error =>
    if error.isPyMongoError then pure none else .raise error

/-- `_release`. -/
def release (pair : ReservationPair) (outcome : BorrowerReleaseOutcome) : Py Unit :=
  ReservationService.releasePair cfg pair outcome

/-- The `try` of `_originate`: the request, the wait for its answer under the timeout, and the
health sample of each outcome. `None` is the answer of a timeout. -/
def originate (campaign : Campaign) (pair : ReservationPair) (callId : DocId) :
    Py (Option OriginateResult) := do
  providerRegistryGet cfg campaign.providerName
  let request : OriginateRequest := {
    callId := callId
    campaignId := campaign.id
    phoneNumber := pair.borrower.phoneNumber
    timeoutSeconds := cfg.settings.PROVIDER_TIMEOUT_SECONDS }
  call (.originateCall campaign.providerName request)
  let outcome ← (do
      let result ← call (.awaitOriginate campaign.providerName request)
      pure (Sum.inl result)).catching fun error => pure (Sum.inr error)
  match outcome with
  | .inl result => do
    call (.recordOriginate campaign.providerName result.accepted false result.latencyMs)
    pure (some result)
  | .inr .providerTimeout | .inr .timeout => do
    call (.recordOriginate campaign.providerName false true
      (truncate (cfg.settings.PROVIDER_TIMEOUT_SECONDS * 1000)))
    pure none
  | .inr (.providerRejected reason) => do
    call (.recordOriginate campaign.providerName false false 0)
    pure (some { accepted := false, latencyMs := 0, errorCode := some reason })
  | .inr error => .raise error

/-- `_hangup`. -/
def hangup (providerName : String) (providerCallId : Option String) : Py Unit :=
  Prog.catching (do
    providerRegistryGet cfg providerName
    call (.hangupCall providerName providerCallId)) fun error =>
    if error.isProviderError then pure () else .raise error

/-- `_dial` from the accepted originate on: record the provider's id, or hang up. -/
def dialAccepted (campaign : Campaign) (pair : ReservationPair) (callId : DocId)
    (result : OriginateResult) : Py Bool := do
  let attached ← call (.attachProviderCallId callId result.providerCallId)
  match attached with
  | none => do
    hangup cfg campaign.providerName result.providerCallId
    let _ ← call (.transitionCall callId .FAILED (some "provider_call_id_conflict"))
    release cfg pair .RETRY
    pure false
  | some _ => pure true

/-- `_dial` from the `INITIATED` transition on. -/
def dialInitiated (campaign : Campaign) (pair : ReservationPair) (callId : DocId) : Py Bool := do
  -- neither of the two answers is looked at
  let _ ← transitionAgent pair.agent.id .RESERVED .DIALING .ALLOCATOR pair.agent.stateVersion
  let _ ← call (.bindCall pair.agent.id pair.workerId callId)
  let result ← originate cfg campaign pair callId
  match result with
  | some result =>
    if result.accepted then dialAccepted cfg campaign pair callId result
    else do
      let _ ← call (.transitionCall callId .FAILED result.errorCode)
      release cfg pair .RETRY
      pure false
  | none => do
    let _ ← call (.transitionCall callId .FAILED (some "provider_timeout"))
    release cfg pair .RETRY
    pure false

/-- The arguments `_dial` gives to `create_call`. -/
def callDraft (campaign : Campaign) (pair : ReservationPair) : CallRepo.CallDraft where
  campaignId := campaign.id
  agentId := pair.agent.id
  borrowerId := pair.borrower.id
  providerName := campaign.providerName
  workerId := pair.workerId
  attempt := pair.borrower.attemptCount + 1

/-- `_dial` once the retry gate is open. -/
def dialOpen (campaign : Campaign) (pair : ReservationPair) : Py Bool := do
  let created ← CallRepo.createCall (callDraft campaign pair)
  -- an existing call with this key that has got further than `QUEUED`
  if created.state ≠ .QUEUED then do
    release cfg pair .RELEASED
    pure false
  else
    let _ ← call (.transitionCall created.id .RESERVED none)
    let initiated ← call (.transitionCall created.id .INITIATED none)
    match initiated with
    | none => do
      release cfg pair .RELEASED
      pure false
    | some _ => dialInitiated cfg campaign pair created.id

/-- `_dial`. -/
def dial (campaign : Campaign) (pair : ReservationPair) : Py Bool :=
  if pair.borrower.attemptCount > 0 then do
    let retry ← RetryService.shouldRetry cfg pair.borrower campaign.providerName
    if !retry then do
      release cfg pair .RELEASED
      pure false
    else dialOpen cfg campaign pair
  else dialOpen cfg campaign pair

/-- `_compensate_cancelled_dial`. -/
def compensateCancelledDial (pair : ReservationPair) : Py Unit :=
  (release cfg pair .RELEASED).catching fun error =>
    if error = .cancelled || error.isPyMongoError then pure () else .raise error

/-- The `try` around one `_dial`. -/
def dialCompensated (campaign : Campaign) (pair : ReservationPair) : Py Bool :=
  (dial cfg campaign pair).catching fun error =>
    if error = .cancelled then do
      compensateCancelledDial cfg pair
      .raise error
    else .raise error

/-- The loop of `allocate`: `n` iterations left, the counters so far, and the length of the
current run of contended attempts. -/
def allocateLoop (campaign : Campaign) (workerId : WorkerId) :
    Nat → AllocationResult → Nat → Py AllocationResult
  | 0, counts, _ => pure counts
  | n + 1, counts, consecutiveContentions => do
    let counts := { counts with attempted := counts.attempted + 1 }
    let pair ← reservePair cfg campaign.id workerId
    match pair with
    | none =>
      let counts := { counts with contended := counts.contended + 1 }
      if consecutiveContentions + 1 ≥ maxConsecutiveContentions then pure counts
      else allocateLoop campaign workerId n counts (consecutiveContentions + 1)
    | some pair => do
      let dialled ← dialCompensated cfg campaign pair
      if dialled then
        allocateLoop campaign workerId n { counts with allocated := counts.allocated + 1 } 0
      else allocateLoop campaign workerId n { counts with failed := counts.failed + 1 } 0

/-- `allocate`, for the `approved` of its safety decision. -/
def allocate (campaign : Campaign) (approved : Int) (workerId : WorkerId) :
    Py AllocationResult :=
  allocateLoop cfg campaign workerId approved.toNat
    { attempted := 0, allocated := 0, failed := 0, contended := 0 } 0

end CallAllocator

end SmartDialer
