import SmartDialer.Model.Documents

/-!
# The agent state machine (`app/state_machines/agent_sm.py`)

`canTransition` is the table of legal edges and `isActorAllowed` the table of who may take
each of them. `allowedSources` is how the repositories use the tables: the states an actor may
leave for a given target.
-/

namespace SmartDialer

inductive TransitionActor where
  | ALLOCATOR | EVENT_PROCESSOR | RECOVERY | AGENT | WORKER_TIMER
  deriving DecidableEq, Repr

def TransitionActor.value : TransitionActor → String
  | .ALLOCATOR => "ALLOCATOR"
  | .EVENT_PROCESSOR => "EVENT_PROCESSOR"
  | .RECOVERY => "RECOVERY"
  | .AGENT => "AGENT"
  | .WORKER_TIMER => "WORKER_TIMER"

namespace AgentSm

/-- `AGENT_TRANSITIONS`. -/
def agentTransitions : AgentState → List AgentState
  | .OFFLINE => [.AVAILABLE]
  | .AVAILABLE => [.RESERVED, .PAUSED, .OFFLINE]
  | .RESERVED => [.DIALING, .AVAILABLE, .OFFLINE]
  | .DIALING => [.CONNECTED, .AVAILABLE, .OFFLINE]
  | .CONNECTED => [.WRAP_UP, .AVAILABLE, .OFFLINE]
  | .WRAP_UP => [.AVAILABLE, .PAUSED, .OFFLINE]
  | .PAUSED => [.AVAILABLE, .OFFLINE]

/-- `TRANSITION_ACTORS`; a pair that is not a key has no actor. -/
def transitionActors : AgentState → AgentState → List TransitionActor
  | .OFFLINE, .AVAILABLE => [.AGENT]
  | .AVAILABLE, .RESERVED => [.ALLOCATOR]
  | .AVAILABLE, .PAUSED => [.AGENT]
  | .AVAILABLE, .OFFLINE => [.AGENT, .RECOVERY]
  | .RESERVED, .DIALING => [.ALLOCATOR]
  | .RESERVED, .AVAILABLE => [.ALLOCATOR, .RECOVERY]
  | .RESERVED, .OFFLINE => [.AGENT, .RECOVERY]
  | .DIALING, .CONNECTED => [.EVENT_PROCESSOR]
  | .DIALING, .AVAILABLE => [.ALLOCATOR, .EVENT_PROCESSOR, .RECOVERY]
  | .DIALING, .OFFLINE => [.AGENT, .RECOVERY]
  | .CONNECTED, .WRAP_UP => [.EVENT_PROCESSOR]
  | .CONNECTED, .AVAILABLE => [.EVENT_PROCESSOR, .RECOVERY]
  | .CONNECTED, .OFFLINE => [.AGENT, .RECOVERY]
  | .WRAP_UP, .AVAILABLE => [.WORKER_TIMER, .RECOVERY]
  | .WRAP_UP, .PAUSED => [.AGENT]
  | .WRAP_UP, .OFFLINE => [.AGENT, .RECOVERY]
  | .PAUSED, .AVAILABLE => [.AGENT]
  | .PAUSED, .OFFLINE => [.AGENT, .RECOVERY]
  | _, _ => []

/-- `can_transition`. -/
def canTransition (current target : AgentState) : Bool :=
  target ∈ agentTransitions current

/-- `is_actor_allowed`. -/
def isActorAllowed (current target : AgentState) (actor : TransitionActor) : Bool :=
  actor ∈ transitionActors current target

/-- `allowed_sources`: the states that the actor may take to the target. -/
def allowedSources (target : AgentState) (actor : TransitionActor) : List AgentState :=
  AgentState.all.filter fun state =>
    canTransition state target && isActorAllowed state target actor

theorem mem_allowedSources {state target : AgentState} {actor : TransitionActor} :
    state ∈ allowedSources target actor
      ↔ canTransition state target = true ∧ isActorAllowed state target actor = true := by
  simp [allowedSources, AgentState.mem_all]

end AgentSm

/-- The states of an agent that a worker holds: reserved, dialling or connected. -/
def AgentState.busy : AgentState → Bool
  | .RESERVED | .DIALING | .CONNECTED => true
  | _ => false

/-- Recovery may log an agent out of every state but `OFFLINE`. -/
theorem AgentSm.valid_offline {s : AgentState} (h : s ≠ .OFFLINE) :
    AgentSm.canTransition s .OFFLINE = true
      ∧ AgentSm.isActorAllowed s .OFFLINE .RECOVERY = true := by
  cases s with
  | OFFLINE => exact absurd rfl h
  | _ => decide

end SmartDialer
