import SmartDialer.StateMachines.AgentSm

/-!
# Agent queries and conditional updates (`app/repositories/agent_repo.py`)

Each definition is one database operation: the filter and the update document of the source,
applied atomically. `now` is the clock reading the operation is performed with.
-/

namespace SmartDialer

open DocStore

abbrev Agents := Collection Agent

namespace AgentRepo

/-! ## Time accounting

The stored counters are credited when a state is left, with the time since `state_changed_at`. -/

inductive TimeField where
  | busy_time_ms | available_time_ms | connected_time_ms | wrap_up_time_ms
  deriving DecidableEq

/-- `TIME_ACCOUNTING_FIELDS.get(state, ())`. -/
def timeAccountingFields : AgentState → List TimeField
  | .AVAILABLE => [.available_time_ms]
  | .RESERVED => [.busy_time_ms]
  | .DIALING => [.busy_time_ms]
  | .CONNECTED => [.busy_time_ms, .connected_time_ms]
  | .WRAP_UP => [.busy_time_ms, .wrap_up_time_ms]
  | .OFFLINE => []
  | .PAUSED => []

/-- `{"$max": [0, {"$subtract": [now, "$state_changed_at"]}]}`. -/
def elapsed (now : Time) (d : Agent) : Int := max 0 (now - d.stateChangedAt)

/-- `{"$add": ["$field", elapsed]}` for each of the fields. -/
def creditTime (fields : List TimeField) (now : Time) (d : Agent) : Agent :=
  let amount (f : TimeField) : Int := if f ∈ fields then elapsed now d else 0
  { d with
    busyTimeMs := d.busyTimeMs + amount .busy_time_ms
    availableTimeMs := d.availableTimeMs + amount .available_time_ms
    connectedTimeMs := d.connectedTimeMs + amount .connected_time_ms
    wrapUpTimeMs := d.wrapUpTimeMs + amount .wrap_up_time_ms }

def timeAccountingUpdates (fromState : AgentState) (now : Time) (d : Agent) : Agent :=
  creditTime (timeAccountingFields fromState) now d

/-- The generated `$switch`: a document in one of the source states is credited as a document
leaving that state, any other is left alone. -/
def conditionalAccounting (sources : List AgentState) (now : Time) (d : Agent) : Agent :=
  if d.state ∈ sources then timeAccountingUpdates d.state now d else d

/-! ## Update documents

What each write makes of an agent. Reservation and lease reclaim set `state_changed_at` and credit
nothing; release and transition credit first. -/

/-- The update of `try_reserve_agent`. -/
def reserveUpdate (now : Time) (workerId : WorkerId) (ttlSeconds : Int) (d : Agent) : Agent :=
  { d with
    state := .RESERVED
    stateChangedAt := now
    toLeaseFields := buildLeaseFields workerId ttlSeconds now
    stateVersion := d.stateVersion + 1 }

/-- The update of `release_agent`, which ends the lease and the binding to a call. -/
def releaseUpdate (now : Time) (targetState : AgentState) (actor : TransitionActor) (d : Agent) :
    Agent :=
  { conditionalAccounting (AgentSm.allowedSources targetState actor) now d with
    state := targetState
    stateChangedAt := now
    currentCallId := none
    stateVersion := d.stateVersion + 1
    toLeaseFields := clearedLeaseFields }

/-- The update of `transition_agent`. Lease and `current_call_id` stay as they are. -/
def transitionUpdate (now : Time) (fromState toState : AgentState) (d : Agent) : Agent :=
  { timeAccountingUpdates fromState now d with
    state := toState
    stateChangedAt := now
    stateVersion := d.stateVersion + 1 }

/-- The update of `release_expired_agent_lease`. -/
def leaseReclaimUpdate (now : Time) (d : Agent) : Agent :=
  { d with
    state := .AVAILABLE
    stateChangedAt := now
    currentCallId := none
    toLeaseFields := clearedLeaseFields
    stateVersion := d.stateVersion + 1 }

@[simp] theorem conditionalAccounting_id (sources : List AgentState) (now : Time) (d : Agent) :
    (conditionalAccounting sources now d).id = d.id := by
  unfold conditionalAccounting
  split <;> rfl

@[simp] theorem conditionalAccounting_lastHeartbeatAt (sources : List AgentState) (now : Time)
    (d : Agent) : (conditionalAccounting sources now d).lastHeartbeatAt = d.lastHeartbeatAt := by
  unfold conditionalAccounting
  split <;> rfl

/-! ## Writes

Each write is guarded by what it expects: a state, an owner, or the version that was read. -/

def tryReserveAgent (now : Time) (campaignId agentId : DocId) (workerId : WorkerId)
    (ttlSeconds : Int) (agents : Agents) : Option Agent × Agents :=
  agents.findOneAndUpdate agentId
    (fun d => d.campaignId = campaignId ∧ d.state = .AVAILABLE)
    (reserveUpdate now workerId ttlSeconds) (fun _ => rfl)

def releaseAgent (now : Time) (agentId : DocId) (workerId : WorkerId) (targetState : AgentState)
    (actor : TransitionActor) (agents : Agents) : Option Agent × Agents :=
  agents.findOneAndUpdate agentId
    (fun d => d.reservedBy = some workerId ∧ d.state ∈ AgentSm.allowedSources targetState actor)
    (releaseUpdate now targetState actor) (fun d => conditionalAccounting_id _ now d)

/-- The write of `transition_agent`, after `validate_transition` has passed. -/
def transitionAgent (now : Time) (agentId : DocId) (fromState toState : AgentState)
    (expectedVersion : Nat) (agents : Agents) : Option Agent × Agents :=
  agents.findOneAndUpdate agentId
    (fun d => d.state = fromState ∧ d.stateVersion = expectedVersion)
    (transitionUpdate now fromState toState) (fun _ => rfl)

def bindCall (agentId : DocId) (workerId : WorkerId) (callId : DocId) (agents : Agents) :
    Option Agent × Agents :=
  agents.findOneAndUpdate agentId
    (fun d => d.reservedBy = some workerId)
    (fun d => { d with currentCallId := some callId })
    (fun _ => rfl)

/-- `agent` is the candidate as the sweep read it; `now` is the instant of the sweep. -/
def releaseExpiredAgentLease (agent : Agent) (now : Time) (agents : Agents) :
    Option Agent × Agents :=
  agents.findOneAndUpdate agent.id
    (fun d => d.state = agent.state ∧ d.stateVersion = agent.stateVersion
      ∧ ∃ t ∈ d.leaseExpiresAt, t < now)
    (leaseReclaimUpdate now) (fun _ => rfl)

def heartbeat (now : Time) (agentId : DocId) (agents : Agents) : Bool × Agents :=
  let r := agents.findOneAndUpdate agentId (fun _ => True)
    (fun d => { d with lastHeartbeatAt := some now }) (fun _ => rfl)
  (r.1.isSome, r.2)

/-! ## Writes that find their agent

For callers that know the agent and that the filter matches. -/

section Found

variable {agents : Agents} {a : DocId} {g : Agent} (hg : agents.get? a = some g)

include hg

theorem get?_releaseAgent (now : Time) {workerId : WorkerId} {t : AgentState}
    {actor : TransitionActor} (hworker : g.reservedBy = some workerId)
    (hstate : g.state ∈ AgentSm.allowedSources t actor) :
    (releaseAgent now a workerId t actor agents).2.get? a
      = some (releaseUpdate now t actor g) :=
  Collection.get?_findOneAndUpdate_of_match (f := releaseUpdate now t actor)
    (fun d => conditionalAccounting_id _ now d) hg ⟨hworker, hstate⟩

theorem get?_transitionAgent (now : Time) (t : AgentState) :
    (transitionAgent now a g.state t g.stateVersion agents).2.get? a
      = some (transitionUpdate now g.state t g) :=
  Collection.get?_findOneAndUpdate_of_match (f := transitionUpdate now g.state t)
    (fun _ => rfl) hg ⟨rfl, rfl⟩

theorem get?_bindCall {workerId : WorkerId} (hworker : g.reservedBy = some workerId)
    (callId : DocId) :
    (bindCall a workerId callId agents).2.get? a = some { g with currentCallId := some callId } :=
  Collection.get?_findOneAndUpdate_of_match (f := fun d : Agent => { d with currentCallId := some callId })
    (fun _ => rfl) hg hworker

theorem get?_releaseExpiredAgentLease {candidate : Agent} {now t : Time} (hid : candidate.id = a)
    (hstate : g.state = candidate.state) (hversion : g.stateVersion = candidate.stateVersion)
    (hlease : g.leaseExpiresAt = some t) (hexpired : t < now) :
    (releaseExpiredAgentLease candidate now agents).2.get? a
      = some (leaseReclaimUpdate now g) := by
  subst hid
  exact Collection.get?_findOneAndUpdate_of_match (f := leaseReclaimUpdate now)
    (fun _ => rfl) hg ⟨hstate, hversion, t, hlease, hexpired⟩

end Found

/-! ## Queries

Queries answer with documents as they were; the write that follows checks again. -/

def findClaimableAgents (campaignId : DocId) (window : Nat) (agents : Agents) : List Agent :=
  ((agents.find fun d => d.campaignId = campaignId ∧ d.state = .AVAILABLE).insertionSort
    (fun d e => d.stateChangedAt ≤ e.stateChangedAt)).take window

/-- The filter `find_expired_agent_leases` and `count_expired_leases` share. -/
def leaseExpired (now : Time) (d : Agent) : Prop :=
  d.state ∈ AgentSm.allowedSources .AVAILABLE .RECOVERY ∧ d.reservedBy ≠ none
    ∧ ∃ t ∈ d.leaseExpiresAt, t < now

instance (now : Time) : DecidablePred (leaseExpired now) :=
  fun _ => inferInstanceAs (Decidable (_ ∧ _ ∧ _))

def findExpiredAgentLeases (now : Time) (limit : Int) (agents : Agents) : List Agent :=
  limited limit (agents.find (leaseExpired now))

/-- The filter of `find_heartbeat_expired`; an agent that never sent a heartbeat does not match. -/
def heartbeatExpired (olderThan : Time) (d : Agent) : Prop :=
  d.state ≠ .OFFLINE ∧ ∃ t ∈ d.lastHeartbeatAt, t < olderThan

instance (olderThan : Time) : DecidablePred (heartbeatExpired olderThan) :=
  fun _ => inferInstanceAs (Decidable (_ ∧ _))

def findHeartbeatExpired (olderThan : Time) (limit : Int) (agents : Agents) : List Agent :=
  limited limit (agents.find (heartbeatExpired olderThan))

/-- The filter of `find_expired_wrap_ups`. -/
def wrapUpExpired (olderThan : Time) (campaignId : Option DocId) (d : Agent) : Prop :=
  d.state = .WRAP_UP ∧ d.stateChangedAt ≤ olderThan ∧ ∀ c ∈ campaignId, d.campaignId = c

instance (olderThan : Time) (campaignId : Option DocId) :
    DecidablePred (wrapUpExpired olderThan campaignId) :=
  fun _ => inferInstanceAs (Decidable (_ ∧ _ ∧ _))

def findExpiredWrapUps (olderThan : Time) (limit : Int) (campaignId : Option DocId)
    (agents : Agents) : List Agent :=
  limited limit ((agents.find (wrapUpExpired olderThan campaignId)).insertionSort
    (fun d e => d.stateChangedAt ≤ e.stateChangedAt))

/-- `count_by_state`: the rows of the `$group`, 0 for a state without one. -/
def countByState (campaignId : DocId) (agents : Agents) (state : AgentState) : Nat :=
  (agents.find fun d => d.campaignId = campaignId ∧ d.state = state).length

def countExpiredLeases (now : Time) (agents : Agents) : Nat :=
  (agents.find (leaseExpired now)).length

end AgentRepo

end SmartDialer
