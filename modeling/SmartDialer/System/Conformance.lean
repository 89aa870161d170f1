import SmartDialer.System.Conduct

/-!
# Every program keeps to the conduct

One lemma for each function of the services, by executing it symbolically: at each operation
the constructor of `Emits` that allows it, then the stage after each answer. The result is
`system_conforms`.

`Follows s x Q` says that program `x`, started in stage `s`, performs only operations its stage
emits and ends in a stage and with a result that satisfy `Q`. It composes over `bind` and
`catching`, so each function is executed with the lemmas of the functions it calls and never with
their bodies. The postconditions have names, since callers and callees have to agree on them.

* Reservation: `follows_reservePair`.
* Dialling: `follows_originate`, `follows_dialOpen`, `follows_dialCompensated`,
  `follows_allocateLoop`.
* Events: `follows_applyAgentTransition`, `follows_settleEvent`, `follows_processEvent`.
* Recovery: one lemma for each sweep, then `follows_runSweeps`.
-/

namespace SmartDialer

open Concurrent Machine

variable {cfg : Config}

theorem follows_call {s : Stage} {o : Op} {Q : Stage → Except Exn (Res o) → Prop} :
    (system cfg).Follows s (call o) Q ↔ Emits s o ∧ ∀ r, Q (s.next o r) r :=
  follows_perform s o Q

/-! ## Reservation

`reserve_pair` and the two claims it is made of. The loops over candidates stay in one stage until a
reservation goes through. -/

section Reservation

variable {campaign : Campaign} {workerId : WorkerId}

/-- Where `claimAgent` ends: with an agent in hand exactly when it answers one. -/
def ClaimedAgent (campaign : Campaign) (workerId : WorkerId) :
    Stage → Except Exn (Option Agent) → Prop
  | s, .ok (some agent) => s = .agentClaimed campaign workerId agent
  | s, _ => s = .allocating campaign workerId

theorem follows_claimAgentFrom (candidates : List Agent) :
    (system cfg).Follows (.allocating campaign workerId)
      (ReservationService.claimAgentFrom cfg campaign.id workerId candidates)
      (ClaimedAgent campaign workerId) := by
  induction candidates with
  | nil => rfl
  | cons candidate candidates ih =>
    unfold ReservationService.claimAgentFrom
    rw [Prog.bind_def, follows_bind, follows_call]
    refine ⟨.reserveAgent _ _, fun r => ?_⟩
    rcases r with e | (_ | agent)
    · rfl
    · exact ih
    · rfl

theorem follows_claimAgent :
    (system cfg).Follows (.allocating campaign workerId)
      (ReservationService.claimAgent cfg campaign.id workerId)
      (ClaimedAgent campaign workerId) := by
  unfold ReservationService.claimAgent findClaimableAgents
  rw [Prog.bind_def, follows_bind]
  split
  · rw [Prog.pure_def, follows_ret]
    exact follows_claimAgentFrom []
  · rw [follows_call]
    refine ⟨.claimableAgents _, fun r => ?_⟩
    cases r with
    | error e => rfl
    | ok candidates => exact follows_claimAgentFrom candidates

/-- Where `claimBorrower` ends: with the pair when it answers a borrower, else with the agent
alone. -/
def ClaimedBorrower (campaign : Campaign) (workerId : WorkerId) (agent : Agent) :
    Stage → Except Exn (Option Borrower) → Prop
  | s, .ok (some borrower) =>
    s = .pairClaimed campaign { campaignId := campaign.id, workerId, agent, borrower }
  | s, _ => s = .agentClaimed campaign workerId agent

variable {agent : Agent}

theorem follows_claimBorrowerFrom (candidates : List Borrower) :
    (system cfg).Follows (.agentClaimed campaign workerId agent)
      (ReservationService.claimBorrowerFrom cfg campaign.id workerId candidates)
      (ClaimedBorrower campaign workerId agent) := by
  induction candidates with
  | nil => rfl
  | cons candidate candidates ih =>
    unfold ReservationService.claimBorrowerFrom
    rw [Prog.bind_def, follows_bind, follows_call]
    refine ⟨.reserveBorrower _ _, fun r => ?_⟩
    rcases r with e | (_ | borrower)
    · rfl
    · exact ih
    · rfl

theorem follows_claimBorrower :
    (system cfg).Follows (.agentClaimed campaign workerId agent)
      (ReservationService.claimBorrower cfg campaign.id workerId)
      (ClaimedBorrower campaign workerId agent) := by
  unfold ReservationService.claimBorrower findClaimableBorrowers
  rw [Prog.bind_def, follows_bind]
  split
  · rw [Prog.pure_def, follows_ret]
    exact follows_claimBorrowerFrom []
  · rw [follows_call]
    refine ⟨.claimableBorrowers _, fun r => ?_⟩
    cases r with
    | error e => rfl
    | ok candidates => exact follows_claimBorrowerFrom candidates

/-- An agent without a borrower goes back, and the thread looks for a pair again even if the release
has raised. -/
theorem follows_releaseLoneAgent :
    (system cfg).Follows (.agentClaimed campaign workerId agent)
      (ReservationService.releaseAgent agent.id workerId)
      (fun s _ => s = .allocating campaign workerId) := by
  unfold ReservationService.releaseAgent SmartDialer.releaseAgent
  rw [Prog.bind_def, follows_bind, if_neg (by decide), follows_call]
  refine ⟨.returnLoneAgent, fun r => ?_⟩
  cases r <;> rfl

/-- Where `reservePair` ends: with the pair it answers, else with nothing unless the exception
leaves the allocator. -/
def ReservedPair (campaign : Campaign) (workerId : WorkerId) :
    Stage → Except Exn (Option ReservationPair) → Prop
  | s, .ok (some pair) => s = .pairClaimed campaign pair ∧ pair.workerId = workerId
  | s, .ok none => s = .allocating campaign workerId
  | s, .error e => e.isPyMongoError = true → s = .allocating campaign workerId

/-- Agent first, then borrower. The source catches an error of the database while it claims the
borrower, releases the agent and raises again; other exceptions pass. -/
theorem follows_reservationService_reservePair :
    (system cfg).Follows (.allocating campaign workerId)
      (ReservationService.reservePair cfg campaign.id workerId)
      (ReservedPair campaign workerId) := by
  unfold ReservationService.reservePair
  rw [Prog.bind_def, follows_bind]
  refine follows_claimAgent.mono fun s r hr => ?_
  rcases r with e | (_ | agent)
  · exact fun _ => hr
  · exact hr
  · obtain rfl : s = .agentClaimed campaign workerId agent := hr
    simp only [Prog.bind_def]
    rw [follows_bind, follows_catching]
    refine follows_claimBorrower.mono fun s r hr => ?_
    rcases r with e | (_ | borrower)
    -- no borrower: the agent goes back and the answer is `None`
    · obtain rfl : s = .agentClaimed campaign workerId agent := hr
      -- the `except PyMongoError` of the source
      cases hmongo : e.isPyMongoError with
      | true =>
        simp only [hmongo, if_true, follows_bind]
        refine follows_releaseLoneAgent.mono fun s r hr => ?_
        cases r with
        | error e' => exact fun _ => hr
        | ok _ => exact fun _ => hr
      | false =>
        simp only [hmongo, Bool.false_eq_true, if_false, follows_raise]
        exact fun h => absurd (hmongo.symm.trans h) (by decide)
    · obtain rfl : s = .agentClaimed campaign workerId agent := hr
      simp only [follows_bind]
      refine follows_releaseLoneAgent.mono fun s r hr => ?_
      cases r with
      | error e' => exact fun _ => hr
      | ok _ => exact hr
    · exact ⟨hr, rfl⟩

/-- `_reserve_pair` of the allocator. -/
theorem follows_reservePair :
    (system cfg).Follows (.allocating campaign workerId)
      (CallAllocator.reservePair cfg campaign.id workerId)
      (fun s r => match r with
        | .ok (some pair) => s = .pairClaimed campaign pair ∧ pair.workerId = workerId
        | .ok none => s = .allocating campaign workerId
        | .error _ => True) := by
  unfold CallAllocator.reservePair
  rw [follows_catching]
  refine follows_reservationService_reservePair.mono fun s r hr => ?_
  rcases r with e | (_ | pair)
  · cases hmongo : e.isPyMongoError with
    | true =>
      simp only [hmongo, if_true]
      exact hr hmongo
    | false =>
      simp only [hmongo, Bool.false_eq_true, if_false, follows_raise]
  · exact hr
  · exact hr

end Reservation

/-! ## Dialling

`_dial` in the pieces that the model cuts it into, from the inside out: the release of the pair, the
request to the provider, the accepted call, the initiated call, the call as created. All of them end
as `Dialled` says. -/

section Dialling

variable {campaign : Campaign} {pair : ReservationPair}

/-- Where a dial ends: with nothing in hand when it returns, and on the way to compensation
when it has been cancelled. -/
def Dialled {α : Type} (campaign : Campaign) (pair : ReservationPair) :
    Stage → Except Exn α → Prop
  | s, .ok _ => s = .allocating campaign pair.workerId
  | s, .error e => e = .cancelled → s = .compensating pair

/-- An exception that leaves a dial, at whatever point of it. -/
theorem Dialled.struck {α : Type} (e : Exn) :
    Dialled (α := α) campaign pair (pair.struck e) (.error e) := by
  intro he
  subst he
  rfl

theorem follows_release (outcome : BorrowerReleaseOutcome) :
    (system cfg).Follows (.pairClaimed campaign pair)
      (CallAllocator.release cfg pair outcome) (Dialled campaign pair) := by
  unfold CallAllocator.release ReservationService.releasePair ReservationService.releaseAgent
    SmartDialer.releaseAgent
  rw [Prog.bind_def, follows_bind, if_neg (by decide), Prog.bind_def, follows_bind, follows_call]
  refine ⟨.returnAgent, fun r => ?_⟩
  cases r with
  | error e => exact Dialled.struck e
  | ok _ =>
    rw [Prog.pure_def, follows_ret, Prog.bind_def, follows_bind, follows_call]
    refine ⟨.returnBorrower outcome _ _, fun r => ?_⟩
    cases r with
    | error e => exact Dialled.struck e
    | ok _ => rfl

/-- The way out of a dial that gives the pair back and answers `False`. -/
theorem follows_release_false (outcome : BorrowerReleaseOutcome) :
    (system cfg).Follows (.pairClaimed campaign pair)
      ((CallAllocator.release cfg pair outcome).bind fun _ => Prog.ret false)
      (Dialled campaign pair) := by
  rw [follows_bind]
  refine (follows_release outcome).mono fun s r hr => ?_
  cases r with
  | error e => exact hr
  | ok _ => exact hr

/-- Where `originate` ends: with an originated call, whatever the provider has answered, or
cancelled. -/
def Originated {α : Type} (campaign : Campaign) (pair : ReservationPair) (callId : DocId) :
    Stage → Except Exn α → Prop
  | s, .ok _ => s = .callOriginated campaign pair callId
  | s, .error e => e = .cancelled → s = .compensating pair

variable {callId : DocId}

theorem follows_sampleHealth {α : Type} (name : String) (success timedOut : Bool) (latency : Int)
    (a : α) :
    (system cfg).Follows (.callOriginated campaign pair callId)
      ((call (.recordOriginate name success timedOut latency)).bind fun _ => Prog.ret a)
      (Originated campaign pair callId) := by
  rw [follows_bind, follows_call]
  refine ⟨.sampleHealth _ _ _ _, fun r => ?_⟩
  cases r with
  | error e => exact fun he => by subst he; rfl
  | ok _ => rfl

/-- `_originate`: the registry, the request, the answer within the time limit. Every way out but a
cancellation takes a sample and returns. -/
theorem follows_originate :
    (system cfg).Follows (.callInitiated campaign pair callId)
      (CallAllocator.originate cfg campaign pair callId)
      (Originated campaign pair callId) := by
  unfold CallAllocator.originate providerRegistryGet
  split
  · simp only [Prog.pure_def, Prog.bind_def, Prog.ret_bind]
    rw [follows_bind, follows_call]
    refine ⟨.originate _ _ rfl, fun r => ?_⟩
    cases r with
    | error e => exact fun he => by subst he; rfl
    | ok _ =>
      simp only
      rw [follows_bind, follows_catching, follows_bind, follows_call]
      refine ⟨.awaitAnswer _ _, fun r => ?_⟩
      cases r with
      | ok result => exact follows_sampleHealth _ _ _ _ _
      | error e =>
        cases e with
        | cancelled => exact fun _ => rfl
        | providerTimeout => exact follows_sampleHealth _ _ _ _ _
        | timeout => exact follows_sampleHealth _ _ _ _ _
        | providerRejected reason => exact follows_sampleHealth _ _ _ _ _
        | _ => exact fun he => by cases he
  · exact fun he => by cases he

/-- Where `hangup` ends. Its exceptions are logged, so the dial goes on after it. -/
theorem follows_hangup (name : String) (providerCallId : Option String) :
    (system cfg).Follows (.callOriginated campaign pair callId)
      (CallAllocator.hangup cfg name providerCallId)
      (Originated campaign pair callId) := by
  unfold CallAllocator.hangup providerRegistryGet
  rw [follows_catching]
  split
  · simp only [Prog.pure_def, Prog.bind_def, Prog.ret_bind]
    rw [follows_call]
    refine ⟨.hangup _ _, fun r => ?_⟩
    rcases r with e | u
    · cases e with
      | cancelled => exact fun _ => rfl
      | providerTimeout => rfl
      | providerRejected reason => rfl
      | providerUnavailable name => rfl
      | _ => exact fun he => by cases he
    · rfl
  · rfl

/-- Failing the call and giving the pair back. -/
theorem follows_fail (reason : Option String) :
    (system cfg).Follows (.callOriginated campaign pair callId)
      ((call (.transitionCall callId .FAILED reason)).bind fun _ =>
        (CallAllocator.release cfg pair .RETRY).bind fun _ => Prog.ret false)
      (Dialled campaign pair) := by
  rw [follows_bind, follows_call]
  refine ⟨.failCall _, fun r => ?_⟩
  cases r with
  | error e => exact Dialled.struck e
  | ok _ => exact follows_release_false .RETRY

/-- The provider has accepted. If the id can be attached the dial is over; if not, the call has
ended meanwhile and is hung up. -/
theorem follows_dialAccepted (result : OriginateResult) :
    (system cfg).Follows (.callOriginated campaign pair callId)
      (CallAllocator.dialAccepted cfg campaign pair callId result)
      (Dialled campaign pair) := by
  unfold CallAllocator.dialAccepted
  simp only [Prog.bind_def]
  rw [follows_bind, follows_call]
  refine ⟨.attach _, fun r => ?_⟩
  rcases r with e | (_ | attached)
  · exact Dialled.struck e
  · simp only
    rw [follows_bind]
    refine (follows_hangup _ _).mono fun s r hr => ?_
    cases r with
    | error e => exact hr
    | ok _ =>
      obtain rfl : s = .callOriginated campaign pair callId := hr
      exact follows_fail _
  · rfl

/-- From `INITIATED` on. Agent and binding are written without a look at the answers, and then the
provider is asked. -/
theorem follows_dialInitiated :
    (system cfg).Follows (.callInitiated campaign pair callId)
      (CallAllocator.dialInitiated cfg campaign pair callId)
      (Dialled campaign pair) := by
  unfold CallAllocator.dialInitiated transitionAgent validateTransition
  simp only [show AgentSm.canTransition .RESERVED .DIALING = true from rfl,
    show AgentSm.isActorAllowed .RESERVED .DIALING .ALLOCATOR = true from rfl, Bool.not_true,
    Bool.false_eq_true, if_false, Prog.pure_def, Prog.bind_def, Prog.ret_bind]
  rw [follows_bind, follows_call]
  refine ⟨.agentDials _, fun r => ?_⟩
  cases r with
  | error e => exact Dialled.struck e
  | ok _ =>
    simp only
    rw [follows_bind, follows_call]
    refine ⟨.bindCall, fun r => ?_⟩
    cases r with
    | error e => exact Dialled.struck e
    | ok _ =>
      simp only
      rw [follows_bind]
      refine follows_originate.mono fun s r hr => ?_
      -- no answer in time, or an answer: rejected or accepted
      rcases r with e | (_ | result)
      · exact hr
      · obtain rfl : s = .callOriginated campaign pair callId := hr
        exact follows_fail _
      · obtain rfl : s = .callOriginated campaign pair callId := hr
        simp only
        split
        · exact follows_dialAccepted result
        · exact follows_fail _

/-- Where `createCall` ends: a call found under the key is taken on only while it is queued. -/
theorem follows_createCall :
    (system cfg).Follows (.pairClaimed campaign pair)
      (CallRepo.createCall (CallAllocator.callDraft campaign pair))
      (fun s r => match r with
        | .ok created => s = Stage.nextPairClaimed.taken campaign pair created
        | .error e => e = .cancelled → s = .compensating pair) := by
  unfold CallRepo.createCall
  rw [follows_catching, follows_call]
  refine ⟨.createCall, fun r => ?_⟩
  cases r with
  | ok created => rfl
  | error e =>
    cases e with
    | cancelled => exact fun _ => rfl
    | duplicateKey =>
      simp only [Prog.bind_def]
      rw [follows_bind, follows_call]
      refine ⟨.findExisting, fun r => ?_⟩
      rcases r with e | (_ | existing)
      · exact fun he => by subst he; rfl
      · exact fun he => by cases he
      · rfl
    | _ => exact fun he => by cases he

/-- From `create_call` on. A call that is read back and not queued any more is somebody else's
business, and so is one that is refused `INITIATED`. -/
theorem follows_dialOpen :
    (system cfg).Follows (.pairClaimed campaign pair)
      (CallAllocator.dialOpen cfg campaign pair) (Dialled campaign pair) := by
  unfold CallAllocator.dialOpen
  simp only [Prog.bind_def]
  rw [follows_bind]
  refine follows_createCall.mono fun s r hr => ?_
  cases r with
  | error e => exact hr
  | ok created =>
    simp only at hr ⊢
    unfold Stage.nextPairClaimed.taken at hr
    by_cases hq : created.state = .QUEUED
    · rw [if_pos hq] at hr
      rw [if_neg (not_not_intro hq), hr, follows_bind, follows_call]
      refine ⟨.reserveCall, fun r => ?_⟩
      cases r with
      | error e => exact Dialled.struck e
      | ok _ =>
        simp only
        rw [follows_bind, follows_call]
        refine ⟨.initiateCall, fun r => ?_⟩
        rcases r with e | (_ | initiated)
        · exact Dialled.struck e
        -- overtaken by an event or by recovery
        · exact follows_release_false .RELEASED
        · exact follows_dialInitiated
    · rw [if_neg hq] at hr
      rw [if_pos hq, hr]
      exact follows_release_false .RELEASED

/-- `_dial`: the retry gate stands before everything else. -/
theorem follows_dial :
    (system cfg).Follows (.pairClaimed campaign pair)
      (CallAllocator.dial cfg campaign pair) (Dialled campaign pair) := by
  unfold CallAllocator.dial RetryService.shouldRetry
  split
  · rw [Prog.bind_def, follows_bind]
    split
    · exact follows_release_false .RELEASED
    · rw [Prog.bind_def, follows_bind, follows_call]
      refine ⟨.retryClock, fun r => ?_⟩
      cases r with
      | error e => exact Dialled.struck e
      | ok now =>
        simp only
        split
        · exact follows_release_false .RELEASED
        · rw [follows_call]
          refine ⟨.retryGate _, fun r => ?_⟩
          rcases r with e | (_ | _)
          · exact Dialled.struck e
          · exact follows_release_false .RELEASED
          · exact follows_dialOpen
  · exact follows_dialOpen

/-- The compensation of a cancelled dial. The thread ends with it, so the postcondition asks for
nothing. -/
theorem follows_compensateCancelledDial :
    (system cfg).Follows (.compensating pair)
      (CallAllocator.compensateCancelledDial cfg pair) (fun _ _ => True) := by
  unfold CallAllocator.compensateCancelledDial CallAllocator.release
    ReservationService.releasePair ReservationService.releaseAgent SmartDialer.releaseAgent
  have hcatch : ∀ (s : Stage) (e : Exn), (system cfg).Follows s
      (if (e = .cancelled || e.isPyMongoError) = true then (pure () : Py Unit) else .raise e)
      (fun _ _ => True) := by
    intro s e
    split <;> trivial
  rw [follows_catching, Prog.bind_def, follows_bind, Prog.bind_def, follows_bind,
    if_neg (by decide), follows_call]
  refine ⟨.compensateAgent, fun r => ?_⟩
  cases r with
  | error e => exact hcatch _ e
  | ok _ =>
    rw [Prog.pure_def, follows_ret, Prog.bind_def, follows_bind, follows_call]
    refine ⟨.compensateBorrower _ _, fun r => ?_⟩
    cases r with
    | error e => exact hcatch _ e
    | ok _ => trivial

/-- A dial in the `try` of `allocate`: after a cancellation both are given back and the cancellation
is raised again. -/
theorem follows_dialCompensated :
    (system cfg).Follows (.pairClaimed campaign pair)
      (CallAllocator.dialCompensated cfg campaign pair)
      (fun s r => match r with
        | .ok _ => s = .allocating campaign pair.workerId
        | .error _ => True) := by
  unfold CallAllocator.dialCompensated
  rw [follows_catching]
  refine follows_dial.mono fun s r hr => ?_
  cases r with
  | ok _ => exact hr
  | error e =>
    simp only
    split
    · next he =>
      rw [hr he, Prog.bind_def, follows_bind]
      refine follows_compensateCancelledDial.mono fun s r _ => ?_
      cases r <;> trivial
    · trivial

/-- By induction on the attempts. Between two of them the thread has nothing in hand, which is what
makes the loop a loop. -/
theorem follows_allocateLoop (workerId : WorkerId) (n : Nat) (counts : AllocationResult)
    (contentions : Nat) :
    (system cfg).Follows (.allocating campaign workerId)
      (CallAllocator.allocateLoop cfg campaign workerId n counts contentions)
      (fun _ _ => True) := by
  induction n generalizing counts contentions with
  | zero => trivial
  | succ n ih =>
    unfold CallAllocator.allocateLoop
    rw [Prog.bind_def, follows_bind]
    refine follows_reservePair.mono fun s r hr => ?_
    rcases r with e | (_ | pair)
    · trivial
    · obtain rfl : s = .allocating campaign workerId := hr
      simp only
      split
      · trivial
      · exact ih _ _
    · obtain ⟨rfl, rfl⟩ := hr
      simp only [Prog.bind_def]
      rw [follows_bind]
      refine follows_dialCompensated.mono fun s r hr => ?_
      cases r with
      | error e => trivial
      | ok dialled =>
        obtain rfl : s = .allocating campaign pair.workerId := hr
        cases dialled with
        | true => exact ih _ _
        | false => exact ih _ _

end Dialling

/-! ## Events

`process_event` from the outside: the record of the event, the call it is about, the transition, the
agent and the borrower of the call, the mark. Exceptions of the middle part are caught and marked on
the event. -/

section Events

variable {event : ProviderEvent}

/-- Where the processing of a recorded event ends: the event is marked, or has raised on the way. -/
def Closed (event : ProviderEvent) : Stage → Except Exn EventProcessingResult → Prop
  | s, .ok result => s = .eventClosing event ∧ result.status ≠ .DUPLICATE_IGNORED
  | s, .error _ => s = .eventFailed event

/-- Every stage from which the event may be marked is left the same way. -/
theorem follows_finish {s : Stage} {status : EventProcessingStatus} {applied : Option String}
    (hstatus : status ≠ .DUPLICATE_IGNORED)
    (hemits : Emits s (.markProcessed event.providerName event.providerEventId status applied))
    (hok : s.next (.markProcessed event.providerName event.providerEventId status applied) (.ok ())
      = .eventClosing event)
    (herr : ∀ e, s.next (.markProcessed event.providerName event.providerEventId status applied)
      (.error e) = .eventFailed event) :
    (system cfg).Follows s (EventProcessor.finish event status applied) (Closed event) := by
  unfold EventProcessor.finish
  rw [Prog.bind_def, follows_bind, follows_call]
  refine ⟨hemits, fun r => ?_⟩
  cases r with
  | error e => exact herr e
  | ok _ => exact ⟨hok, hstatus⟩

variable {updated : Call} {targetState : CallState}

/-- What is left of an applied event after the agent: the borrower of a finished call. -/
def AgentSettled (event : ProviderEvent) (updated : Call) (targetState : CallState) :
    Stage → Except Exn Unit → Prop
  | s, .ok _ => (∃ agent, s = .eventApplied event updated targetState agent)
      ∨ CallSm.isTerminal targetState = true ∧ s = .eventAgentReturned event updated targetState
      ∨ CallSm.isTerminal targetState = false ∧ s = .eventFailed event
  | s, .error _ => s = .eventFailed event

theorem mem_agentReleasingCallStates :
    targetState ∈ EventProcessor.agentReleasingCallStates
      ↔ CallSm.isTerminal targetState = true := by
  cases targetState <;> decide

/-- The agent of an applied event. Terminal states release him; the others move him along the state
machine, and a transition that the tables refuse is caught and logged. -/
theorem follows_applyAgentTransition :
    (system cfg).Follows (.eventApplied event updated targetState none)
      (EventProcessor.applyAgentTransition updated targetState)
      (AgentSettled event updated targetState) := by
  unfold EventProcessor.applyAgentTransition
  cases hstate : CallSm.agentStateForCallState targetState with
  | none => exact Or.inl ⟨none, rfl⟩
  | some agentState =>
    simp only [Prog.bind_def]
    rw [follows_bind, follows_call]
    refine ⟨.readAgent, fun r => ?_⟩
    rcases r with e | (_ | agent)
    · rfl
    · exact Or.inl ⟨none, rfl⟩
    · simp only
      split
      -- he is in that state already
      · exact Or.inl ⟨some agent, rfl⟩
      · split
        · next hrel =>
          have hterm := mem_agentReleasingCallStates.mp hrel
          unfold SmartDialer.releaseAgent
          rw [follows_bind]
          split
          · exact Or.inl ⟨some agent, rfl⟩
          · rw [follows_call]
            refine ⟨.settleAgent hterm hstate, fun r => ?_⟩
            cases r with
            | error e => rfl
            | ok _ => exact Or.inr (Or.inl ⟨hterm, rfl⟩)
        · next hrel =>
          have hterm : CallSm.isTerminal targetState = false := by
            simpa [mem_agentReleasingCallStates] using hrel
          unfold transitionAgent validateTransition
          rw [follows_catching, follows_bind, Prog.bind_def, follows_bind]
          split
          · exact Or.inl ⟨some agent, rfl⟩
          · next hcan =>
            split
            · exact Or.inl ⟨some agent, rfl⟩
            · next hactor =>
              rw [Prog.pure_def, follows_ret]
              simp only
              rw [follows_call]
              refine ⟨.advanceAgent hterm ⟨by simpa using hcan, by simpa using hactor⟩ hstate,
                fun r => ?_⟩
              cases r with
              | ok _ => exact Or.inl ⟨some agent, rfl⟩
              | error e =>
                simp only
                split
                -- an error that the source would catch as a refusal; the stage has failed all the
                -- same
                · exact Or.inr (Or.inr ⟨hterm, rfl⟩)
                · rfl

/-- Agent, borrower, mark. The three ways `follows_applyAgentTransition` can end lead to the
borrower in two stages and past him in the third. -/
theorem follows_settleEvent (seen : Call) :
    (system cfg).Follows (.eventApplied event updated targetState none)
      (EventProcessor.settleEvent cfg event seen updated targetState) (Closed event) := by
  unfold EventProcessor.settleEvent EventProcessor.releaseBorrower
  rw [Prog.bind_def, follows_bind]
  refine follows_applyAgentTransition.mono fun s r hr => ?_
  cases r with
  | error e => exact hr
  | ok _ =>
    simp only [mem_agentReleasingCallStates, Prog.bind_def]
    rw [follows_bind]
    rcases hr with ⟨agent, rfl⟩ | ⟨hterm, rfl⟩ | ⟨hterm, rfl⟩
    · cases hterm : CallSm.isTerminal targetState with
      | false => exact follows_finish (by decide) (.markApplied _ _ hterm) rfl fun _ => rfl
      | true =>
        rw [if_pos rfl, follows_bind, follows_call]
        refine ⟨.settleBorrower _ _ _ hterm, fun r => ?_⟩
        cases r with
        | error e => rfl
        | ok _ => exact follows_finish (by decide) (.markEvent _ _) rfl fun _ => rfl
    · rw [if_pos hterm, follows_bind, follows_call]
      refine ⟨.settleLoneBorrower _ _ _, fun r => ?_⟩
      cases r with
      | error e => rfl
      | ok _ => exact follows_finish (by decide) (.markEvent _ _) rfl fun _ => rfl
    · rw [if_neg (by simp [hterm])]
      exact follows_finish (by decide) (.markFailed _ _) rfl fun _ => rfl

theorem ignoredApplicabilityStatus_ne_duplicate (a : EventApplicability) :
    EventProcessor.ignoredApplicabilityStatus a ≠ .DUPLICATE_IGNORED := by
  cases a <;> decide

/-- The event has been recorded. Whether it applies is asked of the call as it was read, and the
transition is conditional on the same. -/
theorem follows_applyEvent :
    (system cfg).Follows (.eventRecorded event) (EventProcessor.applyEvent cfg event)
      (Closed event) := by
  unfold EventProcessor.applyEvent
  rw [Prog.bind_def, follows_bind, follows_call]
  refine ⟨.matchCall, fun r => ?_⟩
  rcases r with e | (_ | seen)
  · rfl
  · exact follows_finish (by decide) (.markEvent _ _) rfl fun _ => rfl
  · show (system cfg).Follows (.eventMatched event seen) _ _
    simp only
    cases htype : EventProcessor.eventTypeToCallState event.eventType with
    | none =>
      have hnone : ∀ t, ¬ EventProcessor.Applies event seen.state t := fun t ht => by
        rw [ht.1] at htype
        cases htype
      exact follows_finish (by decide) (.ignoreEvent _ _ hnone) rfl fun _ => rfl
    | some targetState =>
      simp only
      by_cases happly : CallSm.shouldApplyEvent seen.state targetState = .APPLY
      · rw [if_neg (not_not_intro happly), Prog.bind_def, follows_bind, follows_call]
        refine ⟨.applyEvent _ ⟨htype, happly⟩, fun r => ?_⟩
        rcases r with e | (_ | updated)
        · rfl
        · exact follows_finish (by decide) (.markEvent _ _) rfl fun _ => rfl
        · exact follows_settleEvent seen
      · have hnone : ∀ t, ¬ EventProcessor.Applies event seen.state t := by
          rintro t ⟨ht, happly'⟩
          rw [htype] at ht
          cases ht
          exact happly happly'
        rw [if_pos happly]
        exact follows_finish (ignoredApplicabilityStatus_ne_duplicate _)
          (.ignoreEvent _ _ hnone) rfl fun _ => rfl

/-- Where `processEvent` ends: a second recording closes it at once. -/
def Processed (event : ProviderEvent) : Stage → Except Exn EventProcessingResult → Prop
  | s, .ok result => s = .eventClosing event ∧ result.status ≠ .DUPLICATE_IGNORED
      ∨ s = .eventDuplicate event ∧ result.status = .DUPLICATE_IGNORED
  | s, .error _ => s = .eventFailed event

/-- The record decides: an event that is recorded is applied, a duplicate is answered at once. -/
theorem follows_processEvent :
    (system cfg).Follows (.eventReceived event) (EventProcessor.processEvent cfg event)
      (Processed event) := by
  unfold EventProcessor.processEvent
  rw [Prog.bind_def, follows_bind, follows_call]
  refine ⟨.record, fun r => ?_⟩
  rcases r with e | (_ | _)
  · rfl
  · show (system cfg).Follows (.eventRecorded event) _ _
    simp only
    rw [follows_catching]
    refine follows_applyEvent.mono fun s r hr => ?_
    cases r with
    | ok result => exact Or.inl hr
    | error e =>
      obtain rfl : s = .eventFailed event := hr
      simp only
      split
      · refine (follows_finish (by decide) (.markFailed _ _) rfl fun _ => rfl).mono fun s r hr => ?_
        cases r with
        | ok result => exact Or.inl hr
        | error e => exact hr
      · rfl
  · exact Or.inr ⟨rfl, rfl⟩

end Events

/-! ## Recovery

A pass of the sweeps has one stage, so all there is to show of most of its functions is that they
stay in it and perform what it emits. -/

section Recovery

variable {stale : List Call}

/-- Recovery stays where it is, except for the query that tells it the stale calls. -/
def At {α : Type} (s₀ : Stage) : Stage → Except Exn α → Prop := fun s _ => s = s₀

/-- One step of recovery after another, each staying where it is. -/
theorem follows_at_bind {α β : Type} {s₀ : Stage} {x : Py α} {f : α → Py β}
    (hx : (system cfg).Follows s₀ x (At s₀)) (hf : ∀ a, (system cfg).Follows s₀ (f a) (At s₀)) :
    (system cfg).Follows s₀ (x.bind f) (At s₀) := by
  rw [follows_bind]
  refine hx.mono fun s r hr => ?_
  obtain rfl : s = s₀ := hr
  cases r with
  | error e => rfl
  | ok a => exact hf a

theorem follows_at_call {s₀ : Stage} {o : Op} (hemits : Emits s₀ o)
    (hnext : ∀ r, s₀.next o r = s₀) : (system cfg).Follows s₀ (call o) (At s₀) := by
  rw [follows_call]
  exact ⟨hemits, hnext⟩

theorem follows_at_ret {α : Type} {s₀ : Stage} (a : α) :
    (system cfg).Follows s₀ (.ret a) (At s₀) := rfl

theorem follows_recoverBorrower (ended : Call) :
    (system cfg).Follows (.sweeping stale) (RecoveryWorker.releaseBorrower cfg ended)
      (At (.sweeping stale)) :=
  follows_at_bind (follows_at_call (.recoverBorrower _ _ _ _ _) fun r => by cases r <;> rfl)
    fun _ => follows_at_ret ()

theorem follows_releaseParties (ended : Call) :
    (system cfg).Follows (.sweeping stale) (RecoveryWorker.releaseParties cfg ended)
      (At (.sweeping stale)) := by
  unfold RecoveryWorker.releaseParties SmartDialer.releaseAgent
  refine follows_at_bind ?_ fun _ => follows_recoverBorrower ended
  rw [if_neg (by decide)]
  exact follows_at_call (.recoverAgent _ _) fun r => by cases r <;> rfl

/-- The call that an agent is bound to is read and cancelled. -/
theorem follows_cancelBoundCall (agent : Agent) (reason : String) :
    (system cfg).Follows (.sweeping stale) (RecoveryWorker.cancelBoundCall cfg agent reason)
      (At (.sweeping stale)) := by
  unfold RecoveryWorker.cancelBoundCall
  split
  · exact follows_at_ret ()
  · refine follows_at_bind (follows_at_call (.readBoundCall _) fun r => by cases r <;> rfl)
      fun bound => ?_
    split
    · exact follows_at_ret ()
    · split
      · exact follows_at_ret ()
      · refine follows_at_bind (follows_at_call (.endCall _ (Or.inr (Or.inl rfl)))
          fun r => by cases r <;> rfl) fun cancelled => ?_
        split
        · exact follows_at_ret ()
        · exact follows_recoverBorrower _

/-- `transition_agent`, from a stage that allows every valid transition of the actor. -/
theorem follows_transitionAgent {s₀ : Stage} {agentId : DocId} {s t : AgentState}
    {actor : TransitionActor} {version : Nat}
    (hemits : AgentSm.Valid s t actor → Emits s₀ (.transitionAgent agentId s t actor version))
    (hnext : ∀ r, s₀.next (.transitionAgent agentId s t actor version) r = s₀) :
    (system cfg).Follows s₀ (transitionAgent agentId s t actor version) (At s₀) := by
  unfold transitionAgent validateTransition
  rw [Prog.bind_def, follows_bind]
  split
  · rfl
  · next hcan =>
    split
    · rfl
    · next hactor =>
      exact follows_at_call (hemits ⟨by simpa using hcan, by simpa using hactor⟩) hnext

theorem follows_moveAgent (agentId : DocId) {s t : AgentState} (version : Nat)
    (hkind : t = .OFFLINE ∨ s = .WRAP_UP) :
    (system cfg).Follows (.sweeping stale) (transitionAgent agentId s t .RECOVERY version)
      (At (.sweeping stale)) :=
  follows_transitionAgent (fun hvalid => .moveAgent version hvalid hkind) fun r => by cases r <;> rfl

/-- The first sweep, by induction on its candidates. -/
theorem follows_sweepExpiredAgentLeases (now : Time) (limit : Int) :
    (system cfg).Follows (.sweeping stale) (RecoveryWorker.sweepExpiredAgentLeases cfg now limit)
      (At (.sweeping stale)) := by
  unfold RecoveryWorker.sweepExpiredAgentLeases
  refine follows_at_bind (follows_at_call (.expiredAgents _ _) fun r => by cases r <;> rfl)
    fun agents => ?_
  suffices hloop : ∀ n, (system cfg).Follows (.sweeping stale)
      (RecoveryWorker.sweepExpiredAgentLeasesLoop cfg now agents n) (At (.sweeping stale)) from
    hloop 0
  induction agents with
  | nil => exact fun n => follows_at_ret n
  | cons agent agents ih =>
    intro n
    refine follows_at_bind (follows_cancelBoundCall _ _) fun _ => ?_
    refine follows_at_bind (follows_at_call (.reclaimAgent _ _) fun r => by cases r <;> rfl)
      fun released => ih _

theorem follows_sweepExpiredBorrowerLeases (now : Time) (limit : Int) :
    (system cfg).Follows (.sweeping stale) (RecoveryWorker.sweepExpiredBorrowerLeases now limit)
      (At (.sweeping stale)) := by
  unfold RecoveryWorker.sweepExpiredBorrowerLeases
  refine follows_at_bind (follows_at_call (.expiredBorrowers _ _) fun r => by cases r <;> rfl)
    fun borrowers => ?_
  suffices hloop : ∀ n, (system cfg).Follows (.sweeping stale)
      (RecoveryWorker.reclaimLoop now borrowers n) (At (.sweeping stale)) from hloop 0
  induction borrowers with
  | nil => exact fun n => follows_at_ret n
  | cons borrower borrowers ih =>
    intro n
    exact follows_at_bind (follows_at_call (.reclaimBorrower _ _) fun r => by cases r <;> rfl)
      fun document => ih _

/-- The provider's word ends a call as `COMPLETED` only when the call has a provider call id. -/
theorem follows_reconcileWithProvider (orphan : Call) :
    (system cfg).Follows (.sweeping stale) (RecoveryWorker.reconcileWithProvider cfg orphan)
      (fun s r => s = .sweeping stale ∧ ∀ t, r = .ok t →
        t = .FAILED ∨ t = .COMPLETED ∧ orphan.providerCallId ≠ none) := by
  unfold RecoveryWorker.reconcileWithProvider providerRegistryGet
  cases hid : orphan.providerCallId with
  | none => exact ⟨rfl, fun t ht => Or.inl (by cases ht; rfl)⟩
  | some providerCallId =>
    simp only
    rw [follows_catching]
    split
    · rw [Prog.bind_def, follows_bind, Prog.pure_def, follows_ret, Prog.bind_def, follows_bind,
        follows_call]
      refine ⟨.askProvider _ _, fun r => ?_⟩
      cases r with
      | ok status =>
        refine ⟨rfl, fun t ht => ?_⟩
        cases ht
        cases status with
        | COMPLETED => exact Or.inr ⟨rfl, by simp⟩
        | _ => exact Or.inl rfl
      | error e =>
        simp only
        split
        · exact ⟨rfl, fun t ht => Or.inl (by cases ht; rfl)⟩
        · exact ⟨rfl, fun t ht => by cases ht⟩
    · exact ⟨rfl, fun t ht => Or.inl (by cases ht; rfl)⟩

/-- The loop of the third sweep. The orphans are among the answers of the query, which is what the
provider's word has to be about. -/
theorem follows_sweepOrphanedCallsLoop (orphans : List Call) (hsub : orphans ⊆ stale) (n : Nat) :
    (system cfg).Follows (.sweeping stale)
      (RecoveryWorker.sweepOrphanedCallsLoop cfg orphans n) (At (.sweeping stale)) := by
  induction orphans generalizing n with
  | nil => exact follows_at_ret n
  | cons orphan orphans ih =>
    unfold RecoveryWorker.sweepOrphanedCallsLoop
    rw [Prog.bind_def, follows_bind]
    refine (follows_reconcileWithProvider orphan).mono fun s r hr => ?_
    obtain ⟨rfl, htarget⟩ := hr
    cases r with
    | error e => rfl
    | ok targetState =>
      have hmem : orphan ∈ stale := hsub List.mem_cons_self
      have hends : RecoveryWorker.Ends stale orphan.id targetState := by
        rcases htarget targetState rfl with hfailed | ⟨hcompleted, hid⟩
        · exact Or.inl hfailed
        · exact Or.inr (Or.inr ⟨hcompleted, orphan, hmem, rfl, hid⟩)
      have hrest := ih (fun c hc => hsub (List.mem_cons_of_mem _ hc))
      refine follows_at_bind (follows_at_call (.endCall _ hends) fun r => by cases r <;> rfl)
        fun finished => ?_
      split
      · exact hrest n
      · exact follows_at_bind (follows_releaseParties _) fun _ => hrest (n + 1)

theorem follows_sweepHeartbeatTimeouts (now : Time) (limit : Int) :
    (system cfg).Follows (.sweeping stale) (RecoveryWorker.sweepHeartbeatTimeouts cfg now limit)
      (At (.sweeping stale)) := by
  unfold RecoveryWorker.sweepHeartbeatTimeouts
  refine follows_at_bind (follows_at_call (.silentAgents _ _) fun r => by cases r <;> rfl)
    fun agents => ?_
  suffices hloop : ∀ n, (system cfg).Follows (.sweeping stale)
      (RecoveryWorker.sweepHeartbeatTimeoutsLoop cfg agents n) (At (.sweeping stale)) from hloop 0
  induction agents with
  | nil => exact fun n => follows_at_ret n
  | cons agent agents ih =>
    intro n
    refine follows_at_bind (follows_cancelBoundCall _ _) fun _ => ?_
    exact follows_at_bind (follows_moveAgent _ _ (Or.inl rfl)) fun updated => ih _

theorem follows_sweepStuckWrapUps (now : Time) (limit : Int) :
    (system cfg).Follows (.sweeping stale) (RecoveryWorker.sweepStuckWrapUps cfg now limit)
      (At (.sweeping stale)) := by
  unfold RecoveryWorker.sweepStuckWrapUps
  refine follows_at_bind (follows_at_call (.stuckWrapUps _ _ _) fun r => by cases r <;> rfl)
    fun agents => ?_
  suffices hloop : ∀ n, (system cfg).Follows (.sweeping stale)
      (RecoveryWorker.sweepStuckWrapUpsLoop agents n) (At (.sweeping stale)) from hloop 0
  induction agents with
  | nil => exact fun n => follows_at_ret n
  | cons agent agents ih =>
    intro n
    exact follows_at_bind (follows_moveAgent _ _ (Or.inr rfl)) fun updated => ih _

/-- Some answer of the stale-call query, whichever was the last. -/
def Sweeping {α : Type} : Stage → Except Exn α → Prop := fun s _ => ∃ stale, s = .sweeping stale

theorem At.sweeping {α : Type} {x : Py α}
    (h : (system cfg).Follows (.sweeping stale) x (At (.sweeping stale))) :
    (system cfg).Follows (.sweeping stale) x Sweeping :=
  h.mono fun _ _ hs => ⟨stale, hs⟩

theorem follows_sweepOrphanedCalls (now : Time) (limit : Int) :
    (system cfg).Follows (.sweeping stale) (RecoveryWorker.sweepOrphanedCalls cfg now limit)
      Sweeping := by
  unfold RecoveryWorker.sweepOrphanedCalls
  rw [Prog.bind_def, follows_bind, follows_call]
  refine ⟨.staleCalls _ _, fun r => ?_⟩
  cases r with
  | error e => exact ⟨stale, rfl⟩
  | ok orphans => exact At.sweeping (follows_sweepOrphanedCallsLoop orphans (fun _ h => h) 0)

/-- By induction on the sweeps. Each of them may start with any list of stale calls. -/
theorem follows_runSweepsLoop (sweeps : List (SweepName × Py Nat))
    (hsweeps : ∀ entry ∈ sweeps, ∀ stale,
      (system cfg).Follows (.sweeping stale) entry.2 Sweeping) (counts : RecoverySweepCounts) :
    (system cfg).Follows (.sweeping stale) (RecoveryWorker.runSweepsLoop sweeps counts)
      Sweeping := by
  induction sweeps generalizing stale counts with
  | nil => exact ⟨stale, rfl⟩
  | cons entry rest ih =>
    have hrest : ∀ stale' counts, (system cfg).Follows (.sweeping stale')
        (RecoveryWorker.runSweepsLoop rest counts) Sweeping := fun stale' counts =>
      ih (fun entry h => hsweeps entry (List.mem_cons_of_mem _ h)) counts
    unfold RecoveryWorker.runSweepsLoop
    rw [Prog.bind_def, follows_bind, follows_catching, Prog.bind_def, follows_bind]
    refine (hsweeps entry List.mem_cons_self stale).mono fun s r hr => ?_
    obtain ⟨stale', rfl⟩ := hr
    cases r with
    | ok n => exact hrest stale' _
    | error e =>
      simp only
      split
      · exact hrest stale' _
      · exact ⟨stale', rfl⟩

/-- A pass: the clock, then the sweeps. -/
theorem follows_runSweeps :
    (system cfg).Follows (.sweeping stale) (RecoveryWorker.runSweeps cfg) Sweeping := by
  unfold RecoveryWorker.runSweeps RecoveryWorker.sweeps
  rw [Prog.bind_def, follows_bind, follows_call]
  refine ⟨.sweepClock, fun r => ?_⟩
  cases r with
  | error e => exact ⟨stale, rfl⟩
  | ok now =>
    refine follows_runSweepsLoop _ (fun entry hentry stale => ?_) _
    simp only [List.mem_cons, List.not_mem_nil, or_false] at hentry
    rcases hentry with rfl | rfl | rfl | rfl | rfl
    · exact At.sweeping (follows_sweepExpiredAgentLeases _ _)
    · exact At.sweeping (follows_sweepExpiredBorrowerLeases _ _)
    · exact follows_sweepOrphanedCalls _ _
    · exact At.sweeping (follows_sweepHeartbeatTimeouts _ _)
    · exact At.sweeping (follows_sweepStuckWrapUps _ _)

end Recovery

/-! ## Agent actions and the wrap-up timer

Both move agents only along valid edges, in their own name. -/

/-- The routes of an agent: login, logout, the end of a wrap-up, the heartbeat. -/
theorem follows_agentAction (agentId : DocId) (action : String) :
    (system cfg).Follows .acting (AgentActions.agentAction agentId action) (At .acting) := by
  unfold AgentActions.agentAction
  have hfind : ∀ id, (system cfg).Follows .acting (call (.findAgentById id)) (At .acting) :=
    fun id => follows_at_call (.lookAtAgent id) fun _ => rfl
  have hbeat : ∀ id, (system cfg).Follows .acting (call (.heartbeat id)) (At .acting) :=
    fun id => follows_at_call (.beat id) fun _ => rfl
  refine follows_at_bind (hfind agentId) fun agent => ?_
  split
  · rfl
  · split
    · exact follows_at_bind (hbeat _) fun _ => hfind _
    · split
      · rfl
      · refine follows_at_bind (follows_transitionAgent (fun hvalid => .act _ hvalid)
          fun _ => rfl) fun updated => ?_
        split
        · rfl
        · split
          · exact follows_at_bind (hbeat _) fun _ => hfind _
          · exact follows_at_ret _

theorem follows_releaseFinishedWrapUps (campaign : Campaign) :
    (system cfg).Follows .wrapping (WrapUpService.releaseFinishedWrapUps cfg campaign)
      (At .wrapping) := by
  unfold WrapUpService.releaseFinishedWrapUps WrapUpService.findFinishedWrapUps
  refine follows_at_bind (follows_at_bind (follows_at_call .wrapUpClock fun _ => rfl)
    fun now => follows_at_call (.finishedWrapUps _ _ _) fun _ => rfl) fun agents => ?_
  induction agents with
  | nil => exact follows_at_ret ()
  | cons agent agents ih =>
    exact follows_at_bind (follows_transitionAgent (fun _ => .finishWrapUp _) fun _ => rfl)
      fun _ => ih

/-! ## The whole system

The programs of the jobs are the functions above with their results wrapped, which changes neither
stage nor operation. -/

/-- What a finished thread knows: how the processing of its event has ended. -/
def Finished : Job → Stage → Except Exn Outcome → Prop
  | .processEvent event, s, .ok (.event result) => Processed event s (.ok result)
  | .processEvent event, s, .error e => Processed event s (.error e)
  | .processEvent _, _, _ => False
  | _, _, _ => True

/-- **The conduct is what the programs do.** Every operation a job performs is one its stage
emits, whatever the answers have been. -/
theorem system_conforms : (system cfg).Conforms Finished := by
  -- wrapping the result
  have hpass : ∀ {α : Type} {s : Stage} {x : Py α} {f : α → Outcome}
      {P : Stage → Except Exn α → Prop} {Q : Stage → Except Exn Outcome → Prop},
      (system cfg).Follows s x P → (∀ s r, P s r → Q s (r.map f)) →
      (system cfg).Follows s (x.bind fun a => .ret (f a)) Q := by
    intro α s x f P Q hx hQ
    rw [follows_bind]
    refine hx.mono fun s r hr => ?_
    cases r with
    | error e => exact hQ s _ hr
    | ok a => exact hQ s _ hr
  intro job
  cases job with
  | allocate campaign approved workerId =>
    exact hpass (follows_allocateLoop workerId _ _ _) fun _ _ _ => trivial
  | processEvent event =>
    refine hpass follows_processEvent fun s r hr => ?_
    cases r with
    | error e => exact hr
    | ok result => exact hr
  | runSweeps => exact hpass follows_runSweeps fun _ _ _ => trivial
  | agentAction agentId action => exact hpass (follows_agentAction _ _) fun _ _ _ => trivial
  | releaseFinishedWrapUps campaign =>
    exact hpass (f := fun _ => .wrapUps) (follows_releaseFinishedWrapUps campaign)
      fun _ _ _ => trivial

end SmartDialer
