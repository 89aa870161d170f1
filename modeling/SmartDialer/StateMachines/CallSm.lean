import SmartDialer.Model.Documents

/-!
# The call state machine (`app/state_machines/call_sm.py`)

The table of legal edges, the rank that only grows, and `shouldApplyEvent`, the decision the
event processor takes on the state it has read.
-/

namespace SmartDialer

inductive EventApplicability where
  | APPLY | IGNORE_TERMINAL | IGNORE_STALE | IGNORE_INVALID
  deriving DecidableEq, Repr

namespace CallSm

/-- `CALL_TRANSITIONS`. -/
def callTransitions : CallState → List CallState
  | .QUEUED => [.RESERVED, .INITIATED, .FAILED, .CANCELLED]
  | .RESERVED => [.INITIATED, .FAILED, .CANCELLED]
  | .INITIATED => [.RINGING, .ANSWERED, .CONNECTED, .COMPLETED, .FAILED, .CANCELLED]
  | .RINGING => [.ANSWERED, .CONNECTED, .COMPLETED, .FAILED, .CANCELLED]
  | .ANSWERED => [.CONNECTED, .COMPLETED, .FAILED, .CANCELLED]
  | .CONNECTED => [.COMPLETED, .FAILED, .CANCELLED]
  | .COMPLETED => []
  | .FAILED => []
  | .CANCELLED => []

/-- `AGENT_STATE_FOR_CALL_STATE.get(state)`. -/
def agentStateForCallState : CallState → Option AgentState
  | .INITIATED => some .DIALING
  | .RINGING => some .DIALING
  | .ANSWERED => some .CONNECTED
  | .CONNECTED => some .CONNECTED
  | .COMPLETED => some .WRAP_UP
  | .FAILED => some .AVAILABLE
  | .CANCELLED => some .AVAILABLE
  | .QUEUED => none
  | .RESERVED => none

def rank (state : CallState) : Nat := callStateRank state

def isTerminal (state : CallState) : Bool := state ∈ terminalCallStates

def canTransition (current target : CallState) : Bool :=
  target ∈ callTransitions current

def shouldApplyEvent (currentState targetState : CallState) : EventApplicability :=
  if isTerminal currentState then .IGNORE_TERMINAL
  else if rank targetState ≤ rank currentState then .IGNORE_STALE
  else if !canTransition currentState targetState then .IGNORE_INVALID
  else .APPLY

/-! ## How rank, terminality and the table fit together

The filter of `transition_call` looks at rank and terminal flag only, and the event processor at the
table as well. These lemmas say where the two agree. -/

theorem rank_le_six (s : CallState) : rank s ≤ 6 := by
  cases s <;> decide

/-- The terminal states are exactly those of the highest rank. -/
theorem isTerminal_iff_rank (s : CallState) : isTerminal s = true ↔ rank s = 6 := by
  cases s <;> decide

theorem rank_injective_of_not_terminal {s t : CallState} (hs : isTerminal s = false)
    (h : rank s = rank t) : s = t := by
  revert hs h
  cases s <;> cases t <;> decide

/-- Every edge of the table raises the rank. -/
theorem rank_lt_of_canTransition {s t : CallState} (h : canTransition s t = true) :
    rank s < rank t := by
  revert h
  cases s <;> cases t <;> decide

/-- From `INITIATED` on, every move to a higher rank is an edge of the table. -/
theorem canTransition_of_initiated {s t : CallState} (hs : rank .INITIATED ≤ rank s)
    (h : rank s < rank t) : canTransition s t = true := by
  revert hs h
  cases s <;> cases t <;> decide

/-- `FAILED` and `CANCELLED` can be reached from every unfinished state. -/
theorem canTransition_of_abort {s t : CallState} (hs : isTerminal s = false)
    (ht : t = .FAILED ∨ t = .CANCELLED) : canTransition s t = true := by
  rcases ht with rfl | rfl <;> revert hs <;> cases s <;> decide

/-- The two moves of call setup are edges of the table from every lower rank. -/
theorem canTransition_of_setup {s t : CallState} (ht : t = .RESERVED ∨ t = .INITIATED)
    (h : rank s < rank t) : canTransition s t = true := by
  rcases ht with rfl | rfl <;> revert h <;> cases s <;> decide

/-- On an attached call an event is applied exactly when it raises the rank of an unfinished
call: the table never refuses. -/
theorem shouldApplyEvent_eq_apply {s t : CallState} (hs : rank .INITIATED ≤ rank s) :
    shouldApplyEvent s t = .APPLY ↔ isTerminal s = false ∧ rank s < rank t := by
  unfold shouldApplyEvent
  by_cases hterm : isTerminal s = true
  · simp [hterm]
  · by_cases hrank : rank t ≤ rank s
    · simp [hterm, hrank]
    · have hlt : rank s < rank t := by omega
      simp [hterm, hrank, hlt, canTransition_of_initiated hs hlt]

end CallSm

end SmartDialer
