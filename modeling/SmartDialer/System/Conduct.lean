import SmartDialer.Services.AgentActions
import SmartDialer.Services.EventProcessor
import SmartDialer.Workers.RecoveryWorker

/-!
# The system: jobs, stages and what a thread does at each stage

A `Job` is one execution of a component. Its `Stage` is how far it has come: which agent,
borrower and call it has in its hands. `Emits` lists every operation a thread may perform at a
stage and `Stage.next` the stage after the answer. No program reads its stage; that the
programs keep to `Emits` is proved in `Conformance`.

Stages are ghosts: they are what the proofs say about a thread, and the programs run without them.
They hold just as much as the later invariants ask for, so that a thread which has come to the same
point by two branches of the source is in one stage.

* `Job.program`: the service function that a job runs.
* `Stage.next`, split by stage, since each stage reads only a few of the answers.
* `Stage.Precedes` and `precedes_next`: where a step can lead, without saying by which answer.
* `Emits`: the operations of a stage, with their arguments and the guards the source has passed.
-/

namespace SmartDialer

open Concurrent

/-! ## Jobs

The entry points through which the store is touched by the dialer itself: a worker that has been
approved some calls, the delivery of an event, a pass of recovery, a request of an agent, and the
timer that ends wrap-ups. -/

/-- One execution of a component, with its arguments. -/
inductive Job where
  | allocate (campaign : Campaign) (approved : Int) (workerId : WorkerId)
  | processEvent (event : ProviderEvent)
  | runSweeps
  | agentAction (agentId : DocId) (action : String)
  | releaseFinishedWrapUps (campaign : Campaign)

/-- The result of a job that has run to its end. -/
inductive Outcome where
  | allocation (result : AllocationResult)
  | event (result : EventProcessingResult)
  | sweeps (counts : RecoverySweepCounts)
  | agent (agent : Option Agent)
  | wrapUps

/-- The program of a job: the function of the source, with its result wrapped. -/
def Job.program (cfg : Config) : Job → Py Outcome
  | .allocate campaign approved workerId => do
    let result ← CallAllocator.allocate cfg campaign approved workerId
    pure (.allocation result)
  | .processEvent event => do
    let result ← EventProcessor.processEvent cfg event
    pure (.event result)
  | .runSweeps => do
    let counts ← RecoveryWorker.runSweeps cfg
    pure (.sweeps counts)
  | .agentAction agentId action => do
    let agent ← AgentActions.agentAction agentId action
    pure (.agent agent)
  | .releaseFinishedWrapUps campaign => do
    WrapUpService.releaseFinishedWrapUps cfg campaign
    pure .wrapUps

/-! ## Stages

The stages of `allocate` follow `reserve_pair` and `_dial`, those of an event follow
`process_event`. A pass of recovery has a single stage, since it holds nothing; what it has been
told of stale calls is all that later operations depend on. -/

/-- How far a thread has come, and what it has in hand there. `idle` is a thread that has ended or
was never started. -/
inductive Stage where
  | idle
  /-- Between two dials, nothing claimed. -/
  | allocating (campaign : Campaign) (workerId : WorkerId)
  | agentClaimed (campaign : Campaign) (workerId : WorkerId) (agent : Agent)
  /-- Agent and borrower claimed, no unfinished call: before the call exists, or after it failed. -/
  | pairClaimed (campaign : Campaign) (pair : ReservationPair)
  | callQueued (campaign : Campaign) (pair : ReservationPair) (callId : DocId)
  /-- This thread's own transition took the call to `INITIATED`; nothing originated yet. -/
  | callInitiated (campaign : Campaign) (pair : ReservationPair) (callId : DocId)
  | callOriginated (campaign : Campaign) (pair : ReservationPair) (callId : DocId)
  /-- The agent has been given back, the borrower not yet. -/
  | agentReturned (campaign : Campaign) (pair : ReservationPair)
  /-- Cancelled in the middle of a dial. -/
  | compensating (pair : ReservationPair)
  | eventReceived (event : ProviderEvent)
  | eventRecorded (event : ProviderEvent)
  | eventMatched (event : ProviderEvent) (seen : Call)
  /-- This thread's own transition moved the call; `agent` is the agent as read afterwards. -/
  | eventApplied (event : ProviderEvent) (updated : Call) (targetState : CallState)
      (agent : Option Agent)
  /-- The agent of the finished call has been given back, the borrower not yet. -/
  | eventAgentReturned (event : ProviderEvent) (updated : Call) (targetState : CallState)
  /-- Nothing left but to mark the event. -/
  | eventClosing (event : ProviderEvent)
  | eventDuplicate (event : ProviderEvent)
  /-- An operation raised. -/
  | eventFailed (event : ProviderEvent)
  /-- `stale` is what the query of the orphaned-call sweep answered. -/
  | sweeping (stale : List Call)
  | acting
  | wrapping

/-- Every job starts with empty hands. -/
def Job.start : Job → Stage
  | .allocate campaign _ workerId => .allocating campaign workerId
  | .processEvent event => .eventReceived event
  | .runSweeps => .sweeping []
  | .agentAction _ _ => .acting
  | .releaseFinishedWrapUps _ => .wrapping

/-- The pair of a thread that is inside `_dial`. The stage `compensating` is not among these: it is
reached when `_dial` has been left by a cancellation. -/
def Stage.dialing : Stage → Option ReservationPair
  | .pairClaimed _ pair | .callQueued _ pair _ | .callInitiated _ pair _ | .callOriginated _ pair _
  | .agentReturned _ pair => some pair
  | _ => none

/-- The event a thread processes, from its delivery to the mark on the record. -/
def Stage.event : Stage → Option ProviderEvent
  | .eventReceived event | .eventRecorded event | .eventMatched event _
  | .eventApplied event _ _ _ | .eventAgentReturned event _ _ | .eventClosing event
  | .eventDuplicate event | .eventFailed event => some event
  | _ => none

/-- The stage of a dial that is struck by an exception: only a cancellation leads to the
compensation, as in `allocate`, and with any other exception the thread has ended. -/
def ReservationPair.struck (pair : ReservationPair) : Exn → Stage
  | .cancelled => .compensating pair
  | _ => .idle

namespace Stage

/-- A reservation that went through puts the agent into the thread's hands; whatever else is
answered, the loop goes on with nothing. -/
def nextAllocating (campaign : Campaign) (workerId : WorkerId) :
    (o : Op) → Except Exn (Res o) → Stage
  | .tryReserveAgent .., .ok (some agent) => .agentClaimed campaign workerId agent
  | _, _ => .allocating campaign workerId

/-- With a borrower the pair is complete. Without one the agent is released, and the release counts
as made even if it raises: the lease is then all that is left of it. -/
def nextAgentClaimed (campaign : Campaign) (workerId : WorkerId) (agent : Agent) :
    (o : Op) → Except Exn (Res o) → Stage
  | .tryReserveBorrower .., .ok (some borrower) =>
    .pairClaimed campaign { campaignId := campaign.id, workerId, agent, borrower }
  | .releaseAgent .., _ => .allocating campaign workerId
  | _, _ => .agentClaimed campaign workerId agent

/-- The retry gate, `create_call`, and the release of the agent. A duplicate key is the one
exception that stays inside: `create_call` catches it and reads the call that has the key. -/
def nextPairClaimed (campaign : Campaign) (pair : ReservationPair) :
    (o : Op) → Except Exn (Res o) → Stage
  | .insertCall _, .ok created => taken created
  -- caught in `create_call`
  | .insertCall _, .error .duplicateKey => .pairClaimed campaign pair
  | .findCallByIdempotencyKey _, .ok (some existing) => taken existing
  | .releaseAgent .., .ok _ => .agentReturned campaign pair
  | _, .ok _ => .pairClaimed campaign pair
  -- every other exception leaves `_dial`
  | _, .error e => pair.struck e
where
  /-- A call that `create_call` answers is taken on only while it is queued. -/
  taken (created : Call) : Stage :=
    if created.state = .QUEUED then .callQueued campaign pair created.id
    else .pairClaimed campaign pair

/-- `_dial` checks the answer of its second transition only: if the call has been moved by somebody
else meanwhile, the pair is given back. -/
def nextCallQueued (campaign : Campaign) (pair : ReservationPair) (callId : DocId) :
    (o : Op) → Except Exn (Res o) → Stage
  | .transitionCall _ .INITIATED _, .ok (some _) => .callInitiated campaign pair callId
  | .transitionCall _ .INITIATED _, .ok none => .pairClaimed campaign pair
  | _, .ok _ => .callQueued campaign pair callId
  | _, .error e => pair.struck e

/-- The agent is set to `DIALING` and bound without a look at the answers. From the request to the
provider on, the call counts as originated, whatever the provider will say. -/
def nextCallInitiated (campaign : Campaign) (pair : ReservationPair) (callId : DocId) :
    (o : Op) → Except Exn (Res o) → Stage
  | .originateCall .., .ok _ => .callOriginated campaign pair callId
  | _, .ok _ => .callInitiated campaign pair callId
  | _, .error e => pair.struck e

/-- Exceptions of the provider are caught, in `_originate` and around the hang-up, except for a
cancellation. A refused attachment keeps the stage, for the hang-up and the failing of the call that
follow. -/
def nextCallOriginated (campaign : Campaign) (pair : ReservationPair) (callId : DocId) :
    (o : Op) → Except Exn (Res o) → Stage
  -- the dial has succeeded, and events take over
  | .attachProviderCallId .., .ok (some _) => .allocating campaign pair.workerId
  -- the call has been failed; the pair goes back next
  | .transitionCall .., .ok _ => .pairClaimed campaign pair
  | .awaitOriginate .., .error .cancelled => .compensating pair
  | .awaitOriginate .., .error _ => .callOriginated campaign pair callId
  | .hangupCall .., .error .cancelled => .compensating pair
  | .hangupCall .., .error _ => .callOriginated campaign pair callId
  | _, .ok _ => .callOriginated campaign pair callId
  | _, .error e => pair.struck e

/-- The borrower goes back after the agent, and with him the dial is over. -/
def nextAgentReturned (campaign : Campaign) (pair : ReservationPair) :
    (o : Op) → Except Exn (Res o) → Stage
  | _, .ok _ => .allocating campaign pair.workerId
  | _, .error e => pair.struck e

/-- The insertion of the event decides whether it is processed at all. -/
def nextEventReceived (event : ProviderEvent) : (o : Op) → Except Exn (Res o) → Stage
  | .recordEvent _, .ok .RECORDED => .eventRecorded event
  | .recordEvent _, .ok .DUPLICATE => .eventDuplicate event
  | _, _ => .eventFailed event

/-- An event whose call is unknown is only marked. -/
def nextEventRecorded (event : ProviderEvent) : (o : Op) → Except Exn (Res o) → Stage
  | .findByProviderCallId .., .ok (some seen) => .eventMatched event seen
  | _, .ok _ => .eventClosing event
  | _, .error _ => .eventFailed event

/-- The conditional transition of the call. Where it answers nothing somebody else has moved the
call, and the event is marked as ignored. -/
def nextEventMatched (event : ProviderEvent) : (o : Op) → Except Exn (Res o) → Stage
  | .transitionCall _ targetState _, .ok (some updated) =>
    .eventApplied event updated targetState none
  | _, .ok _ => .eventClosing event
  | _, .error _ => .eventFailed event

/-- The agent is read, then released or moved on. `agent` is what the read has answered; the release
leads on to the borrower. -/
def nextEventApplied (event : ProviderEvent) (updated : Call) (targetState : CallState)
    (agent : Option Agent) : (o : Op) → Except Exn (Res o) → Stage
  | .findAgentById _, .ok found => .eventApplied event updated targetState found
  | .releaseAgent .., .ok _ => .eventAgentReturned event updated targetState
  | .transitionAgent .., .ok _ => .eventApplied event updated targetState agent
  | _, .ok _ => .eventClosing event
  | _, .error _ => .eventFailed event

/-- The last steps of an event: the borrower, and the mark on the record. An exception leads to the
handler of `process_event`, which marks the event as failed. -/
def nextEventClosing (event : ProviderEvent) : (o : Op) → Except Exn (Res o) → Stage
  | _, .ok _ => .eventClosing event
  | _, .error _ => .eventFailed event

/-- Only the answer of the stale-call query is remembered. -/
def nextSweeping (stale : List Call) : (o : Op) → Except Exn (Res o) → Stage
  | .findStaleCalls .., .ok orphans => .sweeping orphans
  | _, _ => .sweeping stale

/-- The stage that follows operation `o` and its answer. -/
def next : Stage → (o : Op) → Except Exn (Res o) → Stage
  | .idle => fun _ _ => .idle
  | .allocating campaign workerId => nextAllocating campaign workerId
  | .agentClaimed campaign workerId agent => nextAgentClaimed campaign workerId agent
  | .pairClaimed campaign pair => nextPairClaimed campaign pair
  | .callQueued campaign pair callId => nextCallQueued campaign pair callId
  | .callInitiated campaign pair callId => nextCallInitiated campaign pair callId
  | .callOriginated campaign pair callId => nextCallOriginated campaign pair callId
  | .agentReturned campaign pair => nextAgentReturned campaign pair
  | .compensating pair => fun _ _ => .compensating pair
  | .eventReceived event => nextEventReceived event
  | .eventRecorded event => nextEventRecorded event
  | .eventMatched event _ => nextEventMatched event
  | .eventApplied event updated targetState agent =>
    nextEventApplied event updated targetState agent
  | .eventAgentReturned event _ _ => nextEventClosing event
  | .eventClosing event => nextEventClosing event
  | .eventDuplicate event => fun _ _ => .eventDuplicate event
  | .eventFailed event => nextEventClosing event
  | .sweeping stale => nextSweeping stale
  | .acting => fun _ _ => .acting
  | .wrapping => fun _ _ => .wrapping

/-- The stages that can follow a stage, whatever is performed and answered. This is the step
function with its answers forgotten, which is all that an invariant on stages needs. -/
inductive Precedes : Stage → Stage → Prop where
  | stays {s : Stage} : Precedes s s
  -- the allocator
  | claims {campaign workerId} (agent : Agent) :
      Precedes (.allocating campaign workerId) (.agentClaimed campaign workerId agent)
  | pairs {campaign workerId agent} (borrower : Borrower) :
      Precedes (.agentClaimed campaign workerId agent)
        (.pairClaimed campaign { campaignId := campaign.id, workerId, agent, borrower })
  | returnsLone {campaign workerId agent} :
      Precedes (.agentClaimed campaign workerId agent) (.allocating campaign workerId)
  | queues {campaign pair} (callId : DocId) :
      Precedes (.pairClaimed campaign pair) (.callQueued campaign pair callId)
  | returnsAgent {campaign pair} :
      Precedes (.pairClaimed campaign pair) (.agentReturned campaign pair)
  | initiates {campaign pair callId} :
      Precedes (.callQueued campaign pair callId) (.callInitiated campaign pair callId)
  | isOvertaken {campaign pair callId} :
      Precedes (.callQueued campaign pair callId) (.pairClaimed campaign pair)
  | originates {campaign pair callId} :
      Precedes (.callInitiated campaign pair callId) (.callOriginated campaign pair callId)
  | handsOver {campaign pair callId} :
      Precedes (.callOriginated campaign pair callId) (.allocating campaign pair.workerId)
  | failsCall {campaign pair callId} :
      Precedes (.callOriginated campaign pair callId) (.pairClaimed campaign pair)
  | returnsBorrower {campaign pair} :
      Precedes (.agentReturned campaign pair) (.allocating campaign pair.workerId)
  | isStruck {s : Stage} {pair} (e : Exn) (hs : s.dialing = some pair) : Precedes s (pair.struck e)
  -- the event processor
  | records {event} : Precedes (.eventReceived event) (.eventRecorded event)
  | repeats {event} : Precedes (.eventReceived event) (.eventDuplicate event)
  | finds {event} (seen : Call) : Precedes (.eventRecorded event) (.eventMatched event seen)
  | applies {event seen} (updated : Call) (targetState : CallState) :
      Precedes (.eventMatched event seen) (.eventApplied event updated targetState none)
  | reads {event updated targetState agent} (found : Option Agent) :
      Precedes (.eventApplied event updated targetState agent)
        (.eventApplied event updated targetState found)
  | settlesAgent {event updated targetState agent} :
      Precedes (.eventApplied event updated targetState agent)
        (.eventAgentReturned event updated targetState)
  | closes {s : Stage} {event} (hs : s.event = some event) : Precedes s (.eventClosing event)
  | fails {s : Stage} {event} (hs : s.event = some event) : Precedes s (.eventFailed event)
  -- recovery
  | queries {stale} (orphans : List Call) : Precedes (.sweeping stale) (.sweeping orphans)

theorem precedes_taken {campaign : Campaign} {pair : ReservationPair} (created : Call) :
    Precedes (.pairClaimed campaign pair) (nextPairClaimed.taken campaign pair created) := by
  unfold nextPairClaimed.taken
  split
  · exact .queues created.id
  · exact .stays

/-- **Where a step can lead.** For every stage, operation and answer, in the order in which the
components go through their stages. Facts about a thread that no step spoils are shown over the
cases of `Precedes`. -/
theorem precedes_next (s : Stage) (o : Op) (r : Except Exn (Res o)) : s.Precedes (s.next o r) := by
  cases s with
  | idle | compensating | eventDuplicate | acting | wrapping => exact .stays
  | allocating campaign workerId =>
    show Precedes _ (nextAllocating campaign workerId o r)
    unfold nextAllocating
    split
    · exact .claims _
    · exact .stays
  | agentClaimed campaign workerId agent =>
    show Precedes _ (nextAgentClaimed campaign workerId agent o r)
    unfold nextAgentClaimed
    split
    · exact .pairs _
    · exact .returnsLone
    · exact .stays
  | pairClaimed campaign pair =>
    show Precedes _ (nextPairClaimed campaign pair o r)
    unfold nextPairClaimed
    split
    · exact precedes_taken _
    · exact .stays
    · exact precedes_taken _
    · exact .returnsAgent
    · exact .stays
    · exact .isStruck _ rfl
  | callQueued campaign pair callId =>
    show Precedes _ (nextCallQueued campaign pair callId o r)
    unfold nextCallQueued
    split
    · exact .initiates
    · exact .isOvertaken
    · exact .stays
    · exact .isStruck _ rfl
  | callInitiated campaign pair callId =>
    show Precedes _ (nextCallInitiated campaign pair callId o r)
    unfold nextCallInitiated
    split
    · exact .originates
    · exact .stays
    · exact .isStruck _ rfl
  | callOriginated campaign pair callId =>
    show Precedes _ (nextCallOriginated campaign pair callId o r)
    unfold nextCallOriginated
    split
    · exact .handsOver
    · exact .failsCall
    · exact .isStruck .cancelled rfl
    · exact .stays
    · exact .isStruck .cancelled rfl
    · exact .stays
    · exact .stays
    · exact .isStruck _ rfl
  | agentReturned campaign pair =>
    show Precedes _ (nextAgentReturned campaign pair o r)
    unfold nextAgentReturned
    split
    · exact .returnsBorrower
    · exact .isStruck _ rfl
  | eventReceived event =>
    show Precedes _ (nextEventReceived event o r)
    unfold nextEventReceived
    split
    · exact .records
    · exact .repeats
    · exact .fails rfl
  | eventRecorded event =>
    show Precedes _ (nextEventRecorded event o r)
    unfold nextEventRecorded
    split
    · exact .finds _
    · exact .closes rfl
    · exact .fails rfl
  | eventMatched event seen =>
    show Precedes _ (nextEventMatched event o r)
    unfold nextEventMatched
    split
    · exact .applies _ _
    · exact .closes rfl
    · exact .fails rfl
  | eventApplied event updated targetState agent =>
    show Precedes _ (nextEventApplied event updated targetState agent o r)
    unfold nextEventApplied
    split
    · exact .reads _
    · exact .settlesAgent
    · exact .stays
    · exact .closes rfl
    · exact .fails rfl
  | eventAgentReturned event | eventClosing event | eventFailed event =>
    show Precedes _ (nextEventClosing event o r)
    unfold nextEventClosing
    split
    · exact .closes rfl
    · exact .fails rfl
  | sweeping stale =>
    show Precedes _ (nextSweeping stale o r)
    unfold nextSweeping
    split
    · exact .queries _
    · exact .stays

end Stage

/-! ## Conduct

The guards that the source passes before an operation are arguments of the constructors: an event
asks for a transition only when the tables let it, recovery ends a call as completed only on the
word of the provider, an agent is moved only along a valid edge. -/

/-- The states the event processor may ask for on a call it has seen in `current`: the type of the
event names the state, and the state machine applies it. -/
def EventProcessor.Applies (event : ProviderEvent) (current target : CallState) : Prop :=
  EventProcessor.eventTypeToCallState event.eventType = some target
    ∧ CallSm.shouldApplyEvent current target = .APPLY

/-- The states recovery may end a call in: `COMPLETED` only on the word of the provider. -/
def RecoveryWorker.Ends (stale : List Call) (callId : DocId) (target : CallState) : Prop :=
  target = .FAILED ∨ target = .CANCELLED
    ∨ target = .COMPLETED ∧ ∃ c ∈ stale, c.id = callId ∧ c.providerCallId ≠ none

/-- `validate_transition` has passed: the edge exists, and the actor may take it. -/
def AgentSm.Valid (current target : AgentState) (actor : TransitionActor) : Prop :=
  AgentSm.canTransition current target = true ∧ AgentSm.isActorAllowed current target actor = true

instance (current target : AgentState) (actor : TransitionActor) :
    Decidable (AgentSm.Valid current target actor) :=
  inferInstanceAs (Decidable (_ ∧ _))

/-- The operations a thread may perform at a stage, in the order of the source. A stage emits more
than its program performs next, and this does no harm: what is proved of all emitted operations
holds of the performed ones. -/
inductive Emits : Stage → Op → Prop where
  -- the allocator looking for a pair
  | claimableAgents {campaign workerId} (n : Nat) :
      Emits (.allocating campaign workerId) (.findClaimableAgents campaign.id n)
  | reserveAgent {campaign workerId} (agentId : DocId) (ttl : Int) :
      Emits (.allocating campaign workerId) (.tryReserveAgent campaign.id agentId workerId ttl)
  | claimableBorrowers {campaign workerId agent} (n : Nat) :
      Emits (.agentClaimed campaign workerId agent) (.findClaimableBorrowers campaign.id n)
  | reserveBorrower {campaign workerId agent} (borrowerId : DocId) (ttl : Int) :
      Emits (.agentClaimed campaign workerId agent)
        (.tryReserveBorrower campaign.id borrowerId workerId ttl)
  | returnLoneAgent {campaign workerId agent} :
      Emits (.agentClaimed campaign workerId agent)
        (.releaseAgent agent.id workerId .AVAILABLE .ALLOCATOR)
  -- the allocator with a pair
  | retryClock {campaign pair} : Emits (.pairClaimed campaign pair) .utcNow
  | retryGate {campaign pair} (name : String) :
      Emits (.pairClaimed campaign pair) (.shouldAllowRetry name)
  | createCall {campaign pair} :
      Emits (.pairClaimed campaign pair) (.insertCall (CallAllocator.callDraft campaign pair))
  | findExisting {campaign pair} :
      Emits (.pairClaimed campaign pair)
        (.findCallByIdempotencyKey (CallAllocator.callDraft campaign pair).idempotencyKey)
  | returnAgent {campaign pair} :
      Emits (.pairClaimed campaign pair)
        (.releaseAgent pair.agent.id pair.workerId .AVAILABLE .ALLOCATOR)
  | returnBorrower {campaign pair} (outcome : BorrowerReleaseOutcome) (m b : Int) :
      Emits (.agentReturned campaign pair)
        (.releaseBorrower pair.borrower.id pair.workerId outcome m b)
  | compensateAgent {pair} :
      Emits (.compensating pair) (.releaseAgent pair.agent.id pair.workerId .AVAILABLE .ALLOCATOR)
  | compensateBorrower {pair} (m b : Int) :
      Emits (.compensating pair) (.releaseBorrower pair.borrower.id pair.workerId .RELEASED m b)
  -- the allocator with a call
  | reserveCall {campaign pair callId} :
      Emits (.callQueued campaign pair callId) (.transitionCall callId .RESERVED none)
  | initiateCall {campaign pair callId} :
      Emits (.callQueued campaign pair callId) (.transitionCall callId .INITIATED none)
  | agentDials {campaign pair callId} (version : Nat) :
      Emits (.callInitiated campaign pair callId)
        (.transitionAgent pair.agent.id .RESERVED .DIALING .ALLOCATOR version)
  | bindCall {campaign pair callId} :
      Emits (.callInitiated campaign pair callId) (.bindCall pair.agent.id pair.workerId callId)
  | originate {campaign pair callId} (name : String) (request : OriginateRequest)
      (hid : request.callId = callId) :
      Emits (.callInitiated campaign pair callId) (.originateCall name request)
  | awaitAnswer {campaign pair callId} (name : String) (request : OriginateRequest) :
      Emits (.callOriginated campaign pair callId) (.awaitOriginate name request)
  | sampleHealth {campaign pair callId} (name : String) (success timedOut : Bool)
      (latency : Int) :
      Emits (.callOriginated campaign pair callId) (.recordOriginate name success timedOut latency)
  | attach {campaign pair callId} (providerCallId : Option String) :
      Emits (.callOriginated campaign pair callId) (.attachProviderCallId callId providerCallId)
  | hangup {campaign pair callId} (name : String) (providerCallId : Option String) :
      Emits (.callOriginated campaign pair callId) (.hangupCall name providerCallId)
  | failCall {campaign pair callId} (reason : Option String) :
      Emits (.callOriginated campaign pair callId) (.transitionCall callId .FAILED reason)
  -- the event processor
  | record {event} : Emits (.eventReceived event) (.recordEvent event)
  | matchCall {event} :
      Emits (.eventRecorded event)
        (.findByProviderCallId event.providerName event.providerCallId)
  | applyEvent {event} {seen : Call} {targetState} (reason : Option String)
      (happlies : EventProcessor.Applies event seen.state targetState) :
      Emits (.eventMatched event seen) (.transitionCall seen.id targetState reason)
  | ignoreEvent {event} {seen : Call} (status : EventProcessingStatus) (applied : Option String)
      (hnone : ∀ t, ¬ EventProcessor.Applies event seen.state t) :
      Emits (.eventMatched event seen)
        (.markProcessed event.providerName event.providerEventId status applied)
  | readAgent {event updated targetState agent} :
      Emits (.eventApplied event updated targetState agent) (.findAgentById updated.agentId)
  | settleAgent {event updated targetState} {agent : Agent} {agentState : AgentState}
      (hterm : CallSm.isTerminal targetState = true)
      (hstate : CallSm.agentStateForCallState targetState = some agentState) :
      Emits (.eventApplied event updated targetState (some agent))
        (.releaseAgent agent.id updated.createdByWorker agentState .EVENT_PROCESSOR)
  | advanceAgent {event updated targetState} {agent : Agent} {agentState : AgentState}
      (hterm : CallSm.isTerminal targetState = false)
      (hvalid : AgentSm.Valid agent.state agentState .EVENT_PROCESSOR)
      (hstate : CallSm.agentStateForCallState targetState = some agentState) :
      Emits (.eventApplied event updated targetState (some agent))
        (.transitionAgent agent.id agent.state agentState .EVENT_PROCESSOR agent.stateVersion)
  | settleBorrower {event updated targetState agent} (outcome : BorrowerReleaseOutcome)
      (m b : Int) (hterm : CallSm.isTerminal targetState = true) :
      Emits (.eventApplied event updated targetState agent)
        (.releaseBorrower updated.borrowerId updated.createdByWorker outcome m b)
  | markApplied {event updated targetState agent} (status : EventProcessingStatus)
      (applied : Option String) (hterm : CallSm.isTerminal targetState = false) :
      Emits (.eventApplied event updated targetState agent)
        (.markProcessed event.providerName event.providerEventId status applied)
  | settleLoneBorrower {event updated targetState} (outcome : BorrowerReleaseOutcome)
      (m b : Int) :
      Emits (.eventAgentReturned event updated targetState)
        (.releaseBorrower updated.borrowerId updated.createdByWorker outcome m b)
  | markEvent {event} (status : EventProcessingStatus) (applied : Option String) :
      Emits (.eventClosing event)
        (.markProcessed event.providerName event.providerEventId status applied)
  | markFailed {event} (status : EventProcessingStatus) (applied : Option String) :
      Emits (.eventFailed event)
        (.markProcessed event.providerName event.providerEventId status applied)
  -- recovery
  | sweepClock {stale} : Emits (.sweeping stale) .utcNow
  | expiredAgents {stale} (now : Time) (limit : Int) :
      Emits (.sweeping stale) (.findExpiredAgentLeases now limit)
  | expiredBorrowers {stale} (now : Time) (limit : Int) :
      Emits (.sweeping stale) (.findExpiredBorrowerLeases now limit)
  | staleCalls {stale} (olderThan : Time) (limit : Int) :
      Emits (.sweeping stale) (.findStaleCalls olderThan limit)
  | silentAgents {stale} (olderThan : Time) (limit : Int) :
      Emits (.sweeping stale) (.findHeartbeatExpired olderThan limit)
  | stuckWrapUps {stale} (olderThan : Time) (limit : Int) (campaignId : Option DocId) :
      Emits (.sweeping stale) (.findExpiredWrapUps olderThan limit campaignId)
  | readBoundCall {stale} (callId : DocId) : Emits (.sweeping stale) (.findCallById callId)
  | askProvider {stale} (name providerCallId : String) :
      Emits (.sweeping stale) (.getCallStatus name providerCallId)
  | endCall {stale} {callId : DocId} {targetState : CallState} (reason : Option String)
      (hends : RecoveryWorker.Ends stale callId targetState) :
      Emits (.sweeping stale) (.transitionCall callId targetState reason)
  | recoverBorrower {stale} (borrowerId : DocId) (workerId : WorkerId)
      (outcome : BorrowerReleaseOutcome) (m b : Int) :
      Emits (.sweeping stale) (.releaseBorrower borrowerId workerId outcome m b)
  | recoverAgent {stale} (agentId : DocId) (workerId : WorkerId) :
      Emits (.sweeping stale) (.releaseAgent agentId workerId .AVAILABLE .RECOVERY)
  | reclaimAgent {stale} (agent : Agent) (now : Time) :
      Emits (.sweeping stale) (.releaseExpiredAgentLease agent now)
  | reclaimBorrower {stale} (borrower : Borrower) (now : Time) :
      Emits (.sweeping stale) (.reclaimBorrowerLease borrower now)
  | moveAgent {stale} {agentId : DocId} {s t : AgentState} (version : Nat)
      (hvalid : AgentSm.Valid s t .RECOVERY) (hkind : t = .OFFLINE ∨ s = .WRAP_UP) :
      Emits (.sweeping stale) (.transitionAgent agentId s t .RECOVERY version)
  -- agent actions and the wrap-up timer
  | lookAtAgent (agentId : DocId) : Emits .acting (.findAgentById agentId)
  | beat (agentId : DocId) : Emits .acting (.heartbeat agentId)
  | act {agentId : DocId} {s t : AgentState} (version : Nat) (hvalid : AgentSm.Valid s t .AGENT) :
      Emits .acting (.transitionAgent agentId s t .AGENT version)
  | wrapUpClock : Emits .wrapping .utcNow
  | finishedWrapUps (olderThan : Time) (limit : Int) (campaignId : Option DocId) :
      Emits .wrapping (.findExpiredWrapUps olderThan limit campaignId)
  | finishWrapUp {agentId : DocId} (version : Nat) :
      Emits .wrapping (.transitionAgent agentId .WRAP_UP .AVAILABLE .WORKER_TIMER version)

/-- The dialer as a machine of interleaved threads. -/
abbrev System := Machine Job Op Res Exn Store Env Outcome Stage

/-- What has been performed, by whom and with which answer. -/
abbrev Trace := List (Entry Op Res Exn Env)

/-- A moment of a run: the store, the threads with what is left of their programs, and the trace. -/
abbrev SystemWorld := World Job Op Res Exn Store Env Outcome Stage

/-- A regime restricts the runs that a theorem speaks of: the jobs that are started, the operations
that are performed, and the exceptions that strike. -/
abbrev SystemRegime := Regime Job Op Store Env Stage

/-- Every job, every failure, every cancellation. -/
def SystemRegime.anything : SystemRegime where
  admits := fun _ => True
  guard := fun _ _ _ _ _ => True

/-- The machine of the dialer: `exec` on the store, one program for each job, and the stages with
their conduct. -/
def system (cfg : Config) : System where
  exec := exec
  program := Job.program cfg
  idle := .idle
  start := Job.start
  Emits := Emits
  next := Stage.next

theorem anything_allows (cfg : Config) (w : SystemWorld) (a : Action Job Env) :
    SystemRegime.anything.allows (system cfg) w a := by
  cases a with
  | spawn p job => trivial
  | perform p env => exact fun _ _ _ _ _ _ => trivial
  | crash p => trivial

end SmartDialer
