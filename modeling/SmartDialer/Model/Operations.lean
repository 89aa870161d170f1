import SmartDialer.Lib.Interleaving
import SmartDialer.Repositories.AgentRepo
import SmartDialer.Repositories.BorrowerRepo
import SmartDialer.Repositories.CallRepo
import SmartDialer.Repositories.EventRepo

/-!
# Operations: what a component does in one indivisible step

`Op` lists every database operation of the repositories and every question asked of the
outside world: the clock, the in-memory retry gate and the telecom provider. `apply` is the
effect and answer of an operation that goes through, `exec` adds the failures: an operation may
raise, with or without its write having reached the database.

A component is a program over these operations, and whatever happens between two of them is left to
the scheduler and the environment. So a result about all environments covers every clock, every
answer of the provider and every failure, one operation at a time.
-/

namespace SmartDialer

open DocStore Concurrent

/-! ## Exceptions

As many as the `except` clauses of the source tell apart. -/

inductive Exn where
  /-- `pymongo.errors.DuplicateKeyError`. -/
  | duplicateKey
  /-- Any other `PyMongoError`. -/
  | database
  | providerTimeout
  | providerRejected (reason : String)
  | providerUnavailable (name : String)
  /-- `asyncio.TimeoutError`. -/
  | timeout
  /-- `asyncio.CancelledError`, which is not an `Exception`. -/
  | cancelled
  | invalidStateTransition (current target : AgentState) (actor : TransitionActor)
  | unauthorizedTransitionActor (current target : AgentState) (actor : TransitionActor)
  /-- `from_mongo(None)`. -/
  | validationError
  | notFound (resource identifier : String)
  | conflict (message : String)
  /-- Any other `Exception`, by the name of its type. -/
  | other (typeName : String)
  deriving DecidableEq

namespace Exn

/-- `except Exception` catches it. -/
def isException : Exn → Bool
  | .cancelled => false
  | _ => true

/-- `except PyMongoError` catches it. -/
def isPyMongoError : Exn → Bool
  | .duplicateKey | .database => true
  | _ => false

/-- `except ProviderError` catches it. -/
def isProviderError : Exn → Bool
  | .providerTimeout | .providerRejected _ | .providerUnavailable _ => true
  | _ => false

/-- `except StateMachineError` catches it. -/
def isStateMachineError : Exn → Bool
  | .invalidStateTransition _ _ _ | .unauthorizedTransitionActor _ _ _ => true
  | _ => false

/-- `type(error).__name__`. -/
def typeName : Exn → String
  | .duplicateKey => "DuplicateKeyError"
  | .database => "PyMongoError"
  | .providerTimeout => "ProviderTimeout"
  | .providerRejected _ => "ProviderRejected"
  | .providerUnavailable _ => "ProviderUnavailable"
  | .timeout => "TimeoutError"
  | .cancelled => "CancelledError"
  | .invalidStateTransition _ _ _ => "InvalidStateTransition"
  | .unauthorizedTransitionActor _ _ _ => "UnauthorizedTransitionActor"
  | .validationError => "ValidationError"
  | .notFound _ _ => "NotFoundError"
  | .conflict _ => "ConflictError"
  | .other name => name

end Exn

/-! ## Operations and their answers

One operation for each database command and for each `await` on something outside. An operation
carries the arguments that the component passes, the clock reading included where the source takes
it once and passes it on. -/

inductive Op where
  -- agents
  | tryReserveAgent (campaignId agentId : DocId) (workerId : WorkerId) (ttlSeconds : Int)
  | findClaimableAgents (campaignId : DocId) (window : Nat)
  | releaseAgent (agentId : DocId) (workerId : WorkerId) (targetState : AgentState)
      (actor : TransitionActor)
  | transitionAgent (agentId : DocId) (fromState toState : AgentState) (actor : TransitionActor)
      (expectedVersion : Nat)
  | bindCall (agentId : DocId) (workerId : WorkerId) (callId : DocId)
  | findExpiredAgentLeases (now : Time) (limit : Int)
  | releaseExpiredAgentLease (agent : Agent) (now : Time)
  | findHeartbeatExpired (olderThan : Time) (limit : Int)
  | findExpiredWrapUps (olderThan : Time) (limit : Int) (campaignId : Option DocId)
  | findAgentById (agentId : DocId)
  | heartbeat (agentId : DocId)
  -- borrowers
  | tryReserveBorrower (campaignId borrowerId : DocId) (workerId : WorkerId) (ttlSeconds : Int)
  | findClaimableBorrowers (campaignId : DocId) (window : Nat)
  | releaseBorrower (borrowerId : DocId) (workerId : WorkerId) (outcome : BorrowerReleaseOutcome)
      (maxAttempts backoffBaseSeconds : Int)
  | findExpiredBorrowerLeases (now : Time) (limit : Int)
  | reclaimBorrowerLease (candidate : Borrower) (now : Time)
  -- calls
  | insertCall (draft : CallRepo.CallDraft)
  | findCallByIdempotencyKey (key : String)
  | findCallById (callId : DocId)
  | findByProviderCallId (providerName providerCallId : String)
  | attachProviderCallId (callId : DocId) (providerCallId : Option String)
  | transitionCall (callId : DocId) (targetState : CallState) (failureReason : Option String)
  | findStaleCalls (olderThan : Time) (limit : Int)
  -- provider events
  | recordEvent (event : ProviderEvent)
  | markProcessed (providerName providerEventId : String) (status : EventProcessingStatus)
      (appliedTransition : Option String)
  -- what the safety controller reads and writes
  | countAgentsByState (campaignId : DocId)
  | countCallsByState (campaignId : DocId)
  | countExpiredLeases (now : Time)
  | outcomeCountsBetween (campaignId : DocId) (start stop : Time)
  | getHealth (providerName : String)
  | recordSafetyDecision (campaignId : DocId) (requested approved : Int)
  -- the outside world
  | utcNow
  | shouldAllowRetry (providerName : String)
  | recordOriginate (providerName : String) (success timedOut : Bool) (latencyMs : Int)
  | originateCall (providerName : String) (request : OriginateRequest)
  | awaitOriginate (providerName : String) (request : OriginateRequest)
  | hangupCall (providerName : String) (providerCallId : Option String)
  | getCallStatus (providerName providerCallId : String)
  deriving DecidableEq

/-- The answer of an operation that does not raise. -/
abbrev Res : Op → Type
  | .tryReserveAgent .. => Option Agent
  | .findClaimableAgents .. => List Agent
  | .releaseAgent .. => Option Agent
  | .transitionAgent .. => Option Agent
  | .bindCall .. => Option Agent
  | .findExpiredAgentLeases .. => List Agent
  | .releaseExpiredAgentLease .. => Option Agent
  | .findHeartbeatExpired .. => List Agent
  | .findExpiredWrapUps .. => List Agent
  | .findAgentById .. => Option Agent
  | .heartbeat .. => Bool
  | .tryReserveBorrower .. => Option Borrower
  | .findClaimableBorrowers .. => List Borrower
  | .releaseBorrower .. => Option Borrower
  | .findExpiredBorrowerLeases .. => List Borrower
  | .reclaimBorrowerLease .. => Option Borrower
  | .insertCall .. => Call
  | .findCallByIdempotencyKey .. => Option Call
  | .findCallById .. => Option Call
  | .findByProviderCallId .. => Option Call
  | .attachProviderCallId .. => Option Call
  | .transitionCall .. => Option Call
  | .findStaleCalls .. => List Call
  | .recordEvent .. => EventRecordResult
  | .markProcessed .. => Unit
  | .countAgentsByState .. => AgentState → Nat
  | .countCallsByState .. => CallState → Nat
  | .countExpiredLeases .. => Nat
  | .outcomeCountsBetween .. => CallRepo.OutcomeCounts
  | .getHealth .. => ProviderHealthStatus
  | .recordSafetyDecision .. => Unit
  | .utcNow => Time
  | .shouldAllowRetry .. => Bool
  | .recordOriginate .. => Unit
  | .originateCall .. => Unit
  | .awaitOriginate .. => OriginateResult
  | .hangupCall .. => Unit
  | .getCallStatus .. => ProviderCallStatus

/-! ## The store and the environment of an operation

The store is what all components share. The environment is chosen anew for every operation, so
nothing ties the clock of one operation to that of the next unless a regime does. -/

structure Store where
  agents : Agents
  borrowers : Borrowers
  calls : Calls
  events : ProviderEvents

/-- An exception raised by an operation, and whether the operation had taken effect. -/
structure Fault where
  exn : Exn
  applied : Bool

/-- Everything an operation does not decide by itself: the clock, the id a new document draws,
the failure that strikes it, and the answers of the in-memory health state and of the provider. -/
structure Env where
  now : Time := 0
  newId : DocId := .blank
  fault : Option Fault := none
  retryAllowed : Bool := true
  healthStatus : ProviderHealthStatus := .HEALTHY
  originateResult : OriginateResult := { accepted := false, latencyMs := 0 }
  callStatus : ProviderCallStatus := .ACTIVE

/-- The exceptions that may strike an operation. Reading the clock, the in-memory health state
and retry gate, and handing a request to the provider do not fail. -/
def Op.raises : Op → Exn → Bool
  | .utcNow, _ | .getHealth .., _ | .shouldAllowRetry .., _ | .recordOriginate .., _
  | .originateCall .., _ => false
  | .awaitOriginate .., e | .hangupCall .., e | .getCallStatus .., e =>
    match e with
    | .providerTimeout | .providerRejected _ | .timeout | .cancelled | .other _ => true
    | _ => false
  | _, e =>
    match e with
    | .database | .cancelled | .other _ => true
    | _ => false

/-- Answer and effect of an operation that goes through. -/
def apply (env : Env) (o : Op) (σ : Store) : Except Exn (Res o) × Store :=
  match o with
  | .tryReserveAgent c a w ttl =>
    let r := AgentRepo.tryReserveAgent env.now c a w ttl σ.agents
    (.ok r.1, { σ with agents := r.2 })
  | .findClaimableAgents c n => (.ok (AgentRepo.findClaimableAgents c n σ.agents), σ)
  | .releaseAgent a w t actor =>
    let r := AgentRepo.releaseAgent env.now a w t actor σ.agents
    (.ok r.1, { σ with agents := r.2 })
  | .transitionAgent a s t _ v =>
    let r := AgentRepo.transitionAgent env.now a s t v σ.agents
    (.ok r.1, { σ with agents := r.2 })
  | .bindCall a w c =>
    let r := AgentRepo.bindCall a w c σ.agents
    (.ok r.1, { σ with agents := r.2 })
  | .findExpiredAgentLeases now limit =>
    (.ok (AgentRepo.findExpiredAgentLeases now limit σ.agents), σ)
  | .releaseExpiredAgentLease agent now =>
    let r := AgentRepo.releaseExpiredAgentLease agent now σ.agents
    (.ok r.1, { σ with agents := r.2 })
  | .findHeartbeatExpired olderThan limit =>
    (.ok (AgentRepo.findHeartbeatExpired olderThan limit σ.agents), σ)
  | .findExpiredWrapUps olderThan limit c =>
    (.ok (AgentRepo.findExpiredWrapUps olderThan limit c σ.agents), σ)
  | .findAgentById a => (.ok (σ.agents.get? a), σ)
  | .heartbeat a =>
    let r := AgentRepo.heartbeat env.now a σ.agents
    (.ok r.1, { σ with agents := r.2 })
  | .tryReserveBorrower c b w ttl =>
    let r := BorrowerRepo.tryReserveBorrower env.now c b w ttl σ.borrowers
    (.ok r.1, { σ with borrowers := r.2 })
  | .findClaimableBorrowers c n =>
    (.ok (BorrowerRepo.findClaimableBorrowers env.now c n σ.borrowers), σ)
  | .releaseBorrower b w outcome maxAttempts backoff =>
    let r := BorrowerRepo.releaseBorrower env.now b w outcome maxAttempts backoff σ.borrowers
    (.ok r.1, { σ with borrowers := r.2 })
  | .findExpiredBorrowerLeases now limit =>
    (.ok (BorrowerRepo.findExpiredBorrowerLeases now limit σ.borrowers), σ)
  | .reclaimBorrowerLease candidate now =>
    let r := BorrowerRepo.reclaimBorrowerLease candidate now σ.borrowers
    (.ok r.1, { σ with borrowers := r.2 })
  | .insertCall draft =>
    match CallRepo.insertCall draft env.newId env.now σ.calls with
    | some r => (.ok r.1, { σ with calls := r.2 })
    | none => (.error .duplicateKey, σ)
  | .findCallByIdempotencyKey key => (.ok (CallRepo.findByIdempotencyKey key σ.calls), σ)
  | .findCallById c => (.ok (CallRepo.findById c σ.calls), σ)
  | .findByProviderCallId n p => (.ok (CallRepo.findByProviderCallId n p σ.calls), σ)
  | .attachProviderCallId c p =>
    let r := CallRepo.attachProviderCallId env.now c p σ.calls
    (.ok r.1, { σ with calls := r.2 })
  | .transitionCall c t reason =>
    let r := CallRepo.transitionCall env.now c t reason σ.calls
    (.ok r.1, { σ with calls := r.2 })
  | .findStaleCalls olderThan limit => (.ok (CallRepo.findStaleCalls olderThan limit σ.calls), σ)
  | .recordEvent event =>
    let r := EventRepo.recordEvent event env.now σ.events
    (.ok r.1, { σ with events := r.2 })
  | .markProcessed n e status applied =>
    (.ok (), { σ with events := EventRepo.markProcessed n e status applied σ.events })
  | .countAgentsByState c => (.ok (AgentRepo.countByState c σ.agents), σ)
  | .countCallsByState c => (.ok (CallRepo.countByState c σ.calls), σ)
  | .countExpiredLeases now => (.ok (AgentRepo.countExpiredLeases now σ.agents), σ)
  | .outcomeCountsBetween c start stop =>
    (.ok (CallRepo.outcomeCountsBetween c start stop σ.calls), σ)
  | .getHealth _ => (.ok env.healthStatus, σ)
  -- the decision log is read by no component of the dialer
  | .recordSafetyDecision .. => (.ok (), σ)
  | .utcNow => (.ok env.now, σ)
  | .shouldAllowRetry _ => (.ok env.retryAllowed, σ)
  | .recordOriginate .. => (.ok (), σ)
  | .originateCall .. => (.ok (), σ)
  | .awaitOriginate .. => (.ok env.originateResult, σ)
  | .hangupCall .. => (.ok (), σ)
  | .getCallStatus .. => (.ok env.callStatus, σ)

/-- The fault that strikes the operation in this environment, if it is one that can. -/
def Env.strikes (env : Env) (o : Op) : Option Fault :=
  env.fault.filter fun f => o.raises f.exn

/-- The effect of the operation takes place. -/
def Env.lands (env : Env) (o : Op) : Bool :=
  match env.strikes o with
  | none => true
  | some f => f.applied

/-- Answer and effect of an operation, failures included. -/
def exec (env : Env) (o : Op) (σ : Store) : Except Exn (Res o) × Store :=
  match env.strikes o with
  | none => apply env o σ
  | some f => (.error f.exn, if f.applied then (apply env o σ).2 else σ)

/-- **What performing an operation can come to**: it goes through, or it raises and its effect
has taken place or has not. -/
theorem exec_cases (env : Env) (o : Op) (σ : Store) :
    exec env o σ = apply env o σ
    ∨ ∃ f, env.strikes o = some f ∧ o.raises f.exn = true
      ∧ exec env o σ = (.error f.exn, if f.applied then (apply env o σ).2 else σ) := by
  unfold exec
  cases hs : env.strikes o with
  | none => exact Or.inl rfl
  | some f =>
    have hraises : o.raises f.exn = true := by
      unfold Env.strikes at hs
      exact (Option.filter_eq_some_iff.mp hs).2
    exact Or.inr ⟨f, rfl, hraises, rfl⟩

theorem exec_of_not_lands {env : Env} {o : Op} (h : env.lands o = false) (σ : Store) :
    (exec env o σ).2 = σ := by
  unfold Env.lands at h
  unfold exec
  split at h
  · cases h
  · next f hs => simp only [h, Bool.false_eq_true, if_false]

theorem exec_of_lands {env : Env} {o : Op} (h : env.lands o = true) (σ : Store) :
    (exec env o σ).2 = (apply env o σ).2 := by
  unfold Env.lands at h
  unfold exec
  split at h
  · rfl
  · next f hs => exact if_pos h

/-- Whatever the answer, the store is the one before or the one the operation makes. -/
theorem exec_store (env : Env) (o : Op) (σ : Store) :
    (exec env o σ).2 = σ ∨ (exec env o σ).2 = (apply env o σ).2 := by
  rcases exec_cases env o σ with h | ⟨f, -, -, h⟩
  · exact Or.inr (by rw [h])
  · rw [h]
    cases f.applied with
    | true => exact Or.inr rfl
    | false => exact Or.inl rfl

/-- An answer that is not an exception is that of an operation that went through. -/
theorem exec_of_ok {env : Env} {o : Op} {σ : Store} {a : Res o} (h : (exec env o σ).1 = .ok a) :
    exec env o σ = apply env o σ := by
  rcases exec_cases env o σ with hexec | ⟨f, -, -, hexec⟩
  · exact hexec
  · rw [hexec] at h
    cases h

theorem lands_of_ok {env : Env} {o : Op} {σ : Store} {a : Res o}
    (h : (exec env o σ).1 = .ok a) : env.lands o = true := by
  unfold exec at h
  unfold Env.lands
  split at h
  · rfl
  · cases h

/-- Programs over these operations. -/
abbrev Py (α : Type) := Prog Op Res Exn α

/-- Perform one operation. -/
def call (o : Op) : Py (Res o) := Prog.perform o

end SmartDialer
