import SmartDialer.Lib.HostFloat
import SmartDialer.Services.CallAllocator

/-!
# The safety controller (`app/safety/`, `app/services/agent_availability.py`)

`evaluate` reads the campaign's capacity, turns it into eight limits and approves the least of
them. Floats are of any type `F` with the operations of the host language. The one piece of memory,
the availability tracker, is passed along: `evaluate` takes it and returns it with its decision.
-/

namespace SmartDialer

open Concurrent HostFloat

/-! ## Settings, requests and decisions

Of the settings, what the controller compares with; of requests and decisions, every field. -/

/-- The float settings the controller reads. -/
structure SafetySettings (F : Type) [FloatOps F] where
  MAX_RINGING_RATIO : F := FloatOps.divInt 2 1
  MAX_SNAPSHOT_AGE_SECONDS : F := FloatOps.divInt 5 1
  AVAILABILITY_DROP_THRESHOLD : F := FloatOps.divInt 1 4
  HIGH_FAILURE_RATE_THRESHOLD : F := FloatOps.divInt 3 10
  ANSWER_RATE_WINDOW_SECONDS : F := FloatOps.divInt 120 1

/-- A value of `PacingRequest.inputs`. -/
inductive InputValue (F : Type) where
  | int (n : Int)
  | float (x : F)
  | str (s : String)
  | bool (b : Bool)
  | none

structure PacingRequest (F : Type) where
  requested : Int
  mode : DialingMode
  snapshotCapturedAt : Time
  inputs : List (String × InputValue F) := []
  explanation : String := ""

structure SafetyConstraintResult (F : Type) where
  name : String
  limit : Int
  value : Option F := none
  binding : Bool := false

structure SafetyDecision (F : Type) where
  campaignId : DocId
  requested : Int
  approved : Int
  verdict : SafetyVerdict
  constraints : List (SafetyConstraintResult F)
  bindingConstraint : Option String
  snapshotAgeMs : Int
  createdAt : Time
  fallbackReason : Option String := none
  pacingDecisionId : Option DocId := none

structure CapacityReading (F : Type) where
  availableAgents : Int
  reservedAgents : Int
  activeCalls : Int
  ringingCalls : Int
  expiredLeases : Int
  callFailureRate : F
  providerStatus : ProviderHealthStatus

variable {F : Type} [FloatOps F]

/-! ## The availability tracker

The tracker remembers the number of available agents of each campaign at its last evaluation. -/

/-- `_previous_available`. -/
abbrev AgentAvailabilityTracker := DocId → Option Int

structure AvailabilityDrop (F : Type) where
  campaignId : DocId
  previousAvailable : Int
  currentAvailable : Int
  dropRatio : F

/-- `record_and_detect`. -/
def recordAndDetect (settings : SafetySettings F) (tracker : AgentAvailabilityTracker)
    (campaignId : DocId) (availableAgents : Int) :
    Option (AvailabilityDrop F) × AgentAvailabilityTracker :=
  (match tracker campaignId with
    | none => none
    | some previous =>
      if previous = 0 ∨ availableAgents ≥ previous then none
      else
        let dropRatio : F := FloatOps.divInt (previous - availableAgents) previous
        if FloatOps.le dropRatio settings.AVAILABILITY_DROP_THRESHOLD then none
        else some {
          campaignId, previousAvailable := previous, currentAvailable := availableAgents,
          dropRatio },
    Function.update tracker campaignId (some availableAgents))

/-! ## Fallback (`app/safety/fallback.py`)

The reasons are tried in this order, and the first that applies is the answer. -/

/-- What `should_fallback_to_progressive` is asked with. -/
structure FallbackInputs (F : Type) where
  providerStatus : ProviderHealthStatus
  availabilityDropRatio : F
  availabilityDropThreshold : F
  ringingCalls : Int
  ringingCeiling : Int
  callFailureRate : F
  failureRateThreshold : F
  snapshotIsStale : Bool

/-- The reason to fall back to progressive dialing, if there is one. -/
def shouldFallbackToProgressive (inputs : FallbackInputs F) : Option String :=
  if inputs.snapshotIsStale then some "stale_state"
  else if inputs.providerStatus ≠ .HEALTHY then some "provider_degraded"
  else if FloatOps.lt inputs.availabilityDropThreshold inputs.availabilityDropRatio then
    some "availability_drop"
  else if inputs.ringingCalls > inputs.ringingCeiling then some "excessive_ringing"
  else if FloatOps.lt inputs.failureRateThreshold inputs.callFailureRate then
    some "high_failure_rate"
  else none

/-- `ACTIVE_CALL_STATES`. -/
def activeCallStates : List CallState := [.RESERVED, .INITIATED, .RINGING, .ANSWERED, .CONNECTED]

namespace SafetyController

variable (settings : SafetySettings F)

/-- The exception of a float without integral part. -/
def floatError : Exn := .other "ValueError"

/-! ## Reading

Each count is a query of its own, so the reading is put together from several moments. -/

/-- `_read_capacity`. -/
def readCapacity (campaign : Campaign) : Py (CapacityReading F) := do
  let now ← call .utcNow
  let agentCounts ← call (.countAgentsByState campaign.id)
  let callCounts ← call (.countCallsByState campaign.id)
  let expiredLeases ← call (.countExpiredLeases now)
  match FloatOps.toMillis settings.ANSWER_RATE_WINDOW_SECONDS with
  | none => .raise floatError
  | some window => do
    let outcomes ← call (.outcomeCountsBetween campaign.id (now - window) now)
    let health ← call (.getHealth campaign.providerName)
    pure {
      availableAgents := agentCounts .AVAILABLE
      reservedAgents := agentCounts .RESERVED
      activeCalls := ((activeCallStates.map callCounts).sum : Nat)
      ringingCalls := callCounts .RINGING
      expiredLeases := expiredLeases
      callFailureRate :=
        if outcomes.total = 0 then FloatOps.ofInt 0
        else FloatOps.divInt outcomes.systemFailed outcomes.total
      providerStatus := health }

/-- `_snapshot_age_ms`, at a clock reading. -/
def snapshotAgeMs (F : Type) [FloatOps F] (capturedAt now : Time) : Option Int :=
  wholeMillis F (now - capturedAt)

/-- The two first lines of `_evaluate`: all that it reads. -/
def observe (campaign : Campaign) (request : PacingRequest F) : Py (CapacityReading F × Int) := do
  let reading ← readCapacity settings campaign
  let now ← call .utcNow
  match snapshotAgeMs F request.snapshotCapturedAt now with
  | none => .raise floatError
  | some age => pure (reading, age)

/-- An expired lease makes the snapshot stale, whatever its age. -/
def snapshotIsStale (reading : CapacityReading F) (age : Int) : Bool :=
  FloatOps.intGt age (FloatOps.mul settings.MAX_SNAPSHOT_AGE_SECONDS (FloatOps.ofInt 1000))
    || decide (reading.expiredLeases > 0)

/-- The ringing ceiling, rounded towards zero; `none` where the float has no integral part. -/
def ringingCeiling (reading : CapacityReading F) : Option Int :=
  FloatOps.toInt
    (FloatOps.mul settings.MAX_RINGING_RATIO (FloatOps.ofInt reading.availableAgents))

/-! ## Constraints

The eight constraints are always built, in this order. One that does not apply has the request
itself as its limit. -/

/-- What the status of the provider lets through. -/
def healthLimit (uncapped progressiveEquivalent : Int) : ProviderHealthStatus → Int
  | .UNHEALTHY => 0
  | .DEGRADED => progressiveEquivalent
  | .HEALTHY => uncapped

/-- `_build_constraints`. -/
def buildConstraints (campaign : Campaign) (request : PacingRequest F)
    (reading : CapacityReading F) (progressiveEquivalent ringingCeiling : Int)
    (snapshotIsStale : Bool) (availabilityDropRatio : F) : List (SafetyConstraintResult F) :=
  let uncapped := request.requested
  [{ name := "agent_capacity"
     limit := max 0 (reading.availableAgents - reading.reservedAgents)
     value := some (FloatOps.ofInt reading.availableAgents) },
   { name := "campaign_concurrency"
     limit := max 0 (campaign.maxConcurrentCalls - reading.activeCalls)
     value := some (FloatOps.ofInt reading.activeCalls) },
   { name := "ringing_ceiling"
     limit := max 0 (ringingCeiling - reading.ringingCalls)
     value := some (FloatOps.ofInt reading.ringingCalls) },
   { name := "provider_health"
     limit := healthLimit uncapped progressiveEquivalent reading.providerStatus },
   { name := "progressive_mode_cap"
     limit := if request.mode = .PROGRESSIVE then progressiveEquivalent else uncapped
     value := some (FloatOps.ofInt progressiveEquivalent) },
   { name := "stale_state"
     limit := if snapshotIsStale then 0 else uncapped
     value := some (FloatOps.ofInt reading.expiredLeases) },
   { name := "availability_drop"
     limit :=
       if FloatOps.lt settings.AVAILABILITY_DROP_THRESHOLD availabilityDropRatio then
         progressiveEquivalent
       else uncapped
     value := some availabilityDropRatio },
   { name := "failure_rate"
     limit :=
       if FloatOps.lt settings.HIGH_FAILURE_RATE_THRESHOLD reading.callFailureRate then
         progressiveEquivalent
       else uncapped
     value := some reading.callFailureRate }]

/-- `max(0, min(requested, *limits))`. -/
def approvedCount (requested : Int) (constraints : List (SafetyConstraintResult F)) : Int :=
  max 0 ((constraints.map fun item => item.limit).foldl min requested)

/-- The loop of `_mark_binding`. -/
def markBindingFrom (approved : Int) :
    Bool → List (SafetyConstraintResult F) → List (SafetyConstraintResult F)
  | _, [] => []
  | marked, constraint :: rest =>
    let binding := !marked && decide (constraint.limit = approved)
    { constraint with binding := binding } :: markBindingFrom approved (marked || binding) rest

/-- `_mark_binding`. -/
def markBinding (constraints : List (SafetyConstraintResult F)) (approved requested : Int) :
    List (SafetyConstraintResult F) :=
  if approved ≥ requested then constraints else markBindingFrom approved false constraints

/-- `_verdict`. -/
def verdictFor (requested approved : Int) (fallbackReason : Option String) : SafetyVerdict :=
  if requested = 0 then .APPROVED
  else if fallbackReason.isSome ∧ approved > 0 then .FALLBACK_PROGRESSIVE
  else if approved = 0 then .REJECTED
  else if approved < requested then .REDUCED
  else .APPROVED

/-! ## Evaluation

An exception in the evaluation becomes a decision that approves nothing; one in writing the decision
down is logged and forgotten. -/

/-- `drop.drop_ratio if drop is not None else 0.0`. -/
def availabilityDropRatio (drop : Option (AvailabilityDrop F)) : F :=
  match drop with
  | some drop => drop.dropRatio
  | none => FloatOps.ofInt 0

/-- The `FallbackInputs` of `_evaluate`. -/
def fallbackInputs (reading : CapacityReading F) (age ringingCeiling : Int)
    (drop : Option (AvailabilityDrop F)) : FallbackInputs F where
  providerStatus := reading.providerStatus
  availabilityDropRatio := availabilityDropRatio drop
  availabilityDropThreshold := settings.AVAILABILITY_DROP_THRESHOLD
  ringingCalls := reading.ringingCalls
  ringingCeiling := ringingCeiling
  callFailureRate := reading.callFailureRate
  failureRateThreshold := settings.HIGH_FAILURE_RATE_THRESHOLD
  snapshotIsStale := snapshotIsStale settings reading age

/-- `_evaluate` from the ringing ceiling on. -/
def conclude (campaign : Campaign) (request : PacingRequest F) (pacingDecisionId : Option DocId)
    (reading : CapacityReading F) (age ringingCeiling : Int) (drop : Option (AvailabilityDrop F))
    (createdAt : Time) : SafetyDecision F :=
  let fallbackReason :=
    shouldFallbackToProgressive (fallbackInputs settings reading age ringingCeiling drop)
  let constraints := buildConstraints settings campaign request reading reading.availableAgents
    ringingCeiling (snapshotIsStale settings reading age) (availabilityDropRatio drop)
  let approved := approvedCount request.requested constraints
  let constraints := markBinding constraints approved request.requested
  { campaignId := campaign.id
    requested := request.requested
    approved
    verdict := verdictFor request.requested approved fallbackReason
    constraints
    bindingConstraint := (constraints.find? fun item => item.binding).map fun item => item.name
    snapshotAgeMs := age
    createdAt
    fallbackReason
    pacingDecisionId }

/-- `_evaluate`. Its answer has the tracker beside the decision, since the ringing ceiling can raise
after the tracker has been written. -/
def evaluateUnguarded (tracker : AgentAvailabilityTracker) (campaign : Campaign)
    (request : PacingRequest F) (pacingDecisionId : Option DocId) :
    Py (Except Exn (SafetyDecision F) × AgentAvailabilityTracker) := do
  let (reading, age) ← observe settings campaign request
  let (drop, tracker) := recordAndDetect settings tracker campaign.id reading.availableAgents
  match ringingCeiling settings reading with
  | none => pure (.error floatError, tracker)
  | some ceiling => do
    let createdAt ← call .utcNow
    pure (.ok (conclude settings campaign request pacingDecisionId reading age ceiling drop
      createdAt), tracker)

/-- The decision of an evaluation that raised. -/
def evaluationError (campaign : Campaign) (request : PacingRequest F)
    (pacingDecisionId : Option DocId) (createdAt : Time) : SafetyDecision F where
  campaignId := campaign.id
  requested := request.requested
  approved := 0
  verdict := .REJECTED
  constraints := []
  bindingConstraint := some "evaluation_error"
  snapshotAgeMs := 0
  createdAt := createdAt
  fallbackReason := some "evaluation_error"
  pacingDecisionId := pacingDecisionId

/-- `_persist`. -/
def persistDecision (decision : SafetyDecision F) : Py Unit :=
  (call (.recordSafetyDecision decision.campaignId decision.requested decision.approved)).catching
    fun error => if error.isException then pure () else .raise error

/-- The `try` of `evaluate`. -/
def evaluateGuarded (tracker : AgentAvailabilityTracker) (campaign : Campaign)
    (request : PacingRequest F) (pacingDecisionId : Option DocId) :
    Py (SafetyDecision F × AgentAvailabilityTracker) := do
  let (decision, tracker) ←
    (evaluateUnguarded settings tracker campaign request pacingDecisionId).catching fun error =>
      if error.isException then pure (.error error, tracker) else .raise error
  match decision with
  | .ok decision => pure (decision, tracker)
  | .error _ => do
    let createdAt ← call .utcNow
    pure (evaluationError campaign request pacingDecisionId createdAt, tracker)

/-- `evaluate`. -/
def evaluate (tracker : AgentAvailabilityTracker) (campaign : Campaign)
    (request : PacingRequest F) (pacingDecisionId : Option DocId) (persist : Bool) :
    Py (SafetyDecision F × AgentAvailabilityTracker) := do
  let (decision, tracker) ←
    evaluateGuarded settings tracker campaign request pacingDecisionId
  (if persist then persistDecision decision else pure ())
  pure (decision, tracker)

end SafetyController

end SmartDialer
