import SmartDialer.Calls.InFlight
import SmartDialer.Calls.Origination
import SmartDialer.Lib.Conduct

/-!
# Whom a dial rings

`_dial` does not look at what `transition_agent` and `bind_call` answer. The conduct of this
module follows a dial through these two steps: where the agent stands when they come, and that
nothing is originated before both have been answered. Under it, a reservation that nobody else
touches still stands when the provider is asked to ring.

`Readiness` is a conduct beside the stages, as `Pace` is for recovery: it records the version of the
reserved agent, and then which of the two steps have been answered. It says nothing about the store,
so it can be proved by following the programs alone; what the store has to do with it is the
business of `Ringing`.
-/

namespace SmartDialer

open Concurrent Machine DocStore

/-! ## A conduct for the steps before the originate

The conduct forbids three operations out of their turn. Everything else it lets pass. -/

/-- Where a dial stands with its agent. -/
inductive Readiness where
  /-- No agent in hand whose state is known. -/
  | free
  /-- The agent was reserved at this version and has not been moved. -/
  | claimed (version : Nat)
  | dialing
  | bound
  deriving DecidableEq

namespace Readiness

/-- A reservation starts over with the version it has answered; an answer of `transition_agent` or
`bind_call` counts whatever it says. -/
def next : Readiness → (o : Op) → Except Exn (Res o) → Readiness
  | _, .tryReserveAgent .., .ok (some agent) => .claimed agent.stateVersion
  | _, .tryReserveAgent .., _ => .free
  | _, .releaseAgent .., _ => .free
  | _, .originateCall .., _ => .free
  | .claimed _, .transitionAgent .., .ok _ => .dialing
  | .dialing, .bindCall .., .ok _ => .bound
  | s, _, _ => s

/-- The operations that come at their stage only. -/
def staged : Op → Bool
  | .transitionAgent _ _ _ .ALLOCATOR _ | .bindCall .. | .originateCall .. => true
  | _ => false

/-- The operations that leave every stage as it is. -/
def steady : Op → Bool
  | .tryReserveAgent .. | .releaseAgent .. | .originateCall .. | .transitionAgent .. | .bindCall .. =>
    false
  | _ => true

/-- What may be performed: anything plain, and the three steps in their order, the first one with
the version of the reservation. -/
inductive Emits : Readiness → Op → Prop where
  | plain (s : Readiness) {o : Op} (ho : staged o = false) : Emits s o
  | dial (agentId : DocId) (version : Nat) :
      Emits (.claimed version) (.transitionAgent agentId .RESERVED .DIALING .ALLOCATOR version)
  | bind (agentId : DocId) (workerId : WorkerId) (callId : DocId) :
      Emits .dialing (.bindCall agentId workerId callId)
  | originate (name : String) (request : OriginateRequest) :
      Emits .bound (.originateCall name request)

/-- Every job starts free. -/
def conduct : Conduct Job Op Res Exn Readiness where
  idle := .free
  start := fun _ => .free
  Emits := Emits
  next := next

theorem next_of_steady {s : Readiness} {o : Op} (ho : steady o = true) (r : Except Exn (Res o)) :
    s.next o r = s := by
  cases o with
  | tryReserveAgent | releaseAgent | originateCall | transitionAgent | bindCall => cases ho
  | _ => cases s <;> rfl

theorem staged_of_steady {o : Op} (ho : steady o = true) : staged o = false := by
  cases o with
  | tryReserveAgent | releaseAgent | originateCall | transitionAgent | bindCall => cases ho
  | _ => rfl

end Readiness

/-- The dialer with every dial watched on its way to the originate. -/
abbrev readying (cfg : Config) := (system cfg).both Readiness.conduct

section Follows

variable {cfg : Config} {s : Readiness}

/-- The dialer whose threads are followed by their readiness alone. -/
abbrev readiness (cfg : Config) := (system cfg).under Readiness.conduct

theorem follows_plain {α : Type} {x : Py α} (h : x.Performs fun o => Readiness.staged o = false) :
    (readiness cfg).Follows s x fun _ _ => True :=
  follows_of_performs (fun s _ ho => Readiness.Emits.plain s ho) h

theorem follows_steady {α : Type} {x : Py α} (h : x.Performs fun o => Readiness.steady o = true) :
    (readiness cfg).Follows s x fun s' _ => s' = s :=
  follows_at_of_performs (fun _ ho => ⟨Readiness.Emits.plain s (Readiness.staged_of_steady ho),
    fun r => Readiness.next_of_steady ho r⟩) h

theorem readiness_call {o : Op} {Q : Readiness → Except Exn (Res o) → Prop} :
    (readiness cfg).Follows s (call o) Q ↔ Readiness.Emits s o ∧ ∀ r, Q (s.next o r) r :=
  follows_perform s o Q

/-- Where `claimAgent` ends. -/
def AtVersion : Readiness → Except Exn (Option Agent) → Prop
  | s, .ok (some agent) => s = .claimed agent.stateVersion
  | _, _ => True

theorem readiness_claimAgentFrom {campaignId : DocId} {workerId : WorkerId} (candidates : List Agent) :
    (readiness cfg).Follows s (ReservationService.claimAgentFrom cfg campaignId workerId candidates)
      AtVersion := by
  induction candidates generalizing s with
  | nil => trivial
  | cons candidate candidates ih =>
    unfold ReservationService.claimAgentFrom
    rw [Prog.bind_def, follows_bind]
    refine readiness_call.mpr ⟨.plain s rfl, fun r => ?_⟩
    rcases r with e | (_ | agent)
    · trivial
    · exact ih
    · rfl

theorem readiness_claimAgent {campaignId : DocId} {workerId : WorkerId} :
    (readiness cfg).Follows s (ReservationService.claimAgent cfg campaignId workerId) AtVersion := by
  unfold ReservationService.claimAgent findClaimableAgents
  rw [Prog.bind_def, follows_bind]
  split
  · trivial
  · refine readiness_call.mpr ⟨.plain s rfl, fun r => ?_⟩
    cases r with
    | error e => trivial
    | ok candidates => exact readiness_claimAgentFrom candidates

/-- The claim of a borrower is steady. -/
theorem steady_claimBorrower {campaignId : DocId} {workerId : WorkerId} :
    (ReservationService.claimBorrower cfg campaignId workerId).Performs
      fun o => Readiness.steady o = true := by
  have hloop : ∀ candidates : List Borrower,
      (ReservationService.claimBorrowerFrom cfg campaignId workerId candidates).Performs
        fun o => Readiness.steady o = true := by
    intro candidates
    induction candidates with
    | nil => trivial
    | cons candidate candidates ih =>
      unfold ReservationService.claimBorrowerFrom
      refine .bind (Prog.performs_perform.mpr rfl) fun borrower => ?_
      cases borrower with
      | none => exact ih
      | some borrower => trivial
  unfold ReservationService.claimBorrower findClaimableBorrowers
  refine .bind ?_ hloop
  split
  · trivial
  · exact Prog.performs_perform.mpr rfl

theorem plain_releaseAgent {agentId : DocId} {workerId : WorkerId} :
    (ReservationService.releaseAgent agentId workerId).Performs
      fun o => Readiness.staged o = false := by
  unfold ReservationService.releaseAgent releaseAgent
  rw [if_neg (by decide)]
  exact .bind (Prog.performs_perform.mpr rfl) fun _ => Prog.performs_ret _

/-- Where `reservePair` ends. -/
def PairAtVersion : Readiness → Except Exn (Option ReservationPair) → Prop
  | s, .ok (some pair) => s = .claimed pair.agent.stateVersion
  | _, _ => True

/-- The pair that is answered has its agent at the version that is known. The version is the one
that `try_reserve_agent` has returned, and nothing in between reads the agent again. -/
theorem readiness_reservePair {campaignId : DocId} {workerId : WorkerId} :
    (readiness cfg).Follows s (CallAllocator.reservePair cfg campaignId workerId) PairAtVersion := by
  unfold CallAllocator.reservePair ReservationService.reservePair
  rw [follows_catching, Prog.bind_def, follows_bind]
  refine readiness_claimAgent.mono fun s r hr => ?_
  rcases r with e | (_ | agent)
  · dsimp only
    split <;> trivial
  · trivial
  -- an agent has been claimed, at this version
  · obtain rfl : s = .claimed agent.stateVersion := hr
    dsimp only
    rw [Prog.bind_def, follows_bind, follows_catching]
    refine (follows_steady steady_claimBorrower).mono fun s' r hs => ?_
    subst hs
    rcases r with e | (_ | borrower)
    · -- the search for a borrower has raised
      dsimp only
      split
      · rw [Prog.bind_def, follows_bind]
        refine (follows_plain plain_releaseAgent).mono fun s r _ => ?_
        cases r with
        | error e' =>
          dsimp only
          split <;> trivial
        | ok _ =>
          show (readiness cfg).Follows s (if _ then _ else _) _
          split <;> trivial
      · rw [follows_raise]
        dsimp only
        split <;> trivial
    -- no borrower was found, and the agent is given back
    · dsimp only
      rw [Prog.bind_def, follows_bind]
      refine (follows_plain plain_releaseAgent).mono fun s r _ => ?_
      cases r with
      | error e =>
        dsimp only
        split <;> trivial
      | ok _ => trivial
    · rfl

variable {campaign : Campaign} {pair : ReservationPair}

theorem plain_release_false (outcome : BorrowerReleaseOutcome) :
    ((CallAllocator.release cfg pair outcome).bind fun _ => Prog.ret false).Performs
      fun o => Readiness.staged o = false :=
  .bind (CallAllocator.performs_release rfl fun _ _ => rfl) fun _ => Prog.performs_ret false

/-- `_dial` from the `INITIATED` transition on originates only after its agent is dialing and bound,
as far as the two operations have been answered. -/
theorem readiness_dialInitiated {callId : DocId} :
    (readiness cfg).Follows (.claimed pair.agent.stateVersion)
      (CallAllocator.dialInitiated cfg campaign pair callId) fun _ _ => True := by
  unfold CallAllocator.dialInitiated transitionAgent validateTransition
  simp only [show AgentSm.canTransition .RESERVED .DIALING = true from rfl,
    show AgentSm.isActorAllowed .RESERVED .DIALING .ALLOCATOR = true from rfl, Bool.not_true,
    Bool.false_eq_true, if_false, Prog.pure_def, Prog.bind_def, Prog.ret_bind]
  rw [follows_bind]
  refine readiness_call.mpr ⟨.dial _ _, fun r => ?_⟩
  cases r with
  | error e => trivial
  | ok _ =>
    dsimp only
    rw [follows_bind]
    refine readiness_call.mpr ⟨.bind _ _ _, fun r => ?_⟩
    cases r with
    | error e => trivial
    | ok _ =>
      dsimp only
      unfold CallAllocator.originate providerRegistryGet
      split
      · simp only [Prog.pure_def, Prog.bind_def, Prog.bind_assoc, Prog.ret_bind]
        rw [follows_bind]
        refine readiness_call.mpr ⟨.originate _ _, fun r => ?_⟩
        cases r with
        | error e => trivial
        | ok _ =>
          -- nothing after the originate is bound to a stage
          refine follows_plain (.bind (.catching (.bind (Prog.performs_perform.mpr rfl)
            fun _ => Prog.performs_ret _) fun _ => Prog.performs_ret _) fun outcome =>
            .bind ?_ fun answer => ?_)
          · split
            all_goals first
              | exact .bind (Prog.performs_perform.mpr rfl) fun _ => Prog.performs_ret _
              | exact trivial
          · cases answer with
            | none => exact CallAllocator.performs_fail rfl rfl fun _ _ => rfl
            | some answer =>
              dsimp only
              split
              · exact CallAllocator.performs_dialAccepted rfl rfl (fun _ => rfl) rfl fun _ _ => rfl
              · exact CallAllocator.performs_fail rfl rfl fun _ _ => rfl
      · trivial

/-- `_dial` from a reserved agent on. The transition to `DIALING` is performed at that version, and
only after it has been answered the agent is bound to the call. -/
theorem readiness_dial :
    (readiness cfg).Follows (.claimed pair.agent.stateVersion)
      (CallAllocator.dial cfg campaign pair) fun _ _ => True := by
  -- `_dial` once the retry gate is open
  have hopen : (readiness cfg).Follows (.claimed pair.agent.stateVersion)
      (CallAllocator.dialOpen cfg campaign pair) fun _ _ => True := by
    unfold CallAllocator.dialOpen
    rw [Prog.bind_def, follows_bind]
    refine (follows_steady (CallAllocator.performs_createCall rfl rfl)).mono fun s r hs => ?_
    subst hs
    cases r with
    | error e => trivial
    | ok created =>
      dsimp only
      split
      · exact follows_plain (plain_release_false _)
      · rw [Prog.bind_def, follows_bind]
        refine readiness_call.mpr ⟨.plain _ rfl, fun r => ?_⟩
        cases r with
        | error e => trivial
        | ok _ =>
          dsimp only
          rw [Prog.bind_def, follows_bind]
          refine readiness_call.mpr ⟨.plain _ rfl, fun r => ?_⟩
          rcases r with e | (_ | initiated)
          · trivial
          · exact follows_plain (plain_release_false _)
          · exact readiness_dialInitiated
  unfold CallAllocator.dial
  split
  · rw [Prog.bind_def, follows_bind]
    refine (follows_steady (CallAllocator.performs_shouldRetry rfl rfl)).mono fun s r hs => ?_
    subst hs
    cases r with
    | error e => trivial
    | ok retry =>
      dsimp only
      split
      · exact follows_plain (plain_release_false _)
      · exact hopen
  · exact hopen

/-- The loop of `allocate`, by induction on the attempts that are left. Each iteration starts from
whatever the one before has left, since an attempt to reserve begins anew. -/
theorem readiness_allocateLoop {workerId : WorkerId} (n : Nat) (counts : AllocationResult)
    (consecutiveContentions : Nat) :
    (readiness cfg).Follows s
      (CallAllocator.allocateLoop cfg campaign workerId n counts consecutiveContentions)
      fun _ _ => True := by
  induction n generalizing s counts consecutiveContentions with
  | zero => trivial
  | succ n ih =>
    unfold CallAllocator.allocateLoop
    rw [Prog.bind_def, follows_bind]
    refine readiness_reservePair.mono fun s r hr => ?_
    rcases r with e | (_ | pair)
    · trivial
    · dsimp only
      split
      · trivial
      · exact ih _ _
    · obtain rfl : s = .claimed pair.agent.stateVersion := hr
      dsimp only
      rw [Prog.bind_def, follows_bind]
      unfold CallAllocator.dialCompensated
      rw [follows_catching]
      -- whatever the dial leaves behind, the next attempt claims its agent anew
      refine readiness_dial.mono fun s r _ => ?_
      rcases r with e | dialled
      · dsimp only
        split
        · rw [Prog.bind_def, follows_bind]
          refine (follows_plain ?_).mono fun s r _ => ?_
          · unfold CallAllocator.compensateCancelledDial
            refine .catching (CallAllocator.performs_release rfl fun _ _ => rfl) fun e => ?_
            split <;> trivial
          · cases r <;> trivial
        · trivial
      · dsimp only
        split
        · exact ih _ _
        · exact ih _ _

end Follows

/-- The stages of an allocator. -/
def Stage.allocates : Stage → Bool
  | .allocating .. | .agentClaimed .. | .pairClaimed .. | .callQueued .. | .callInitiated ..
  | .callOriginated .. | .agentReturned .. | .compensating .. => true
  | _ => false

theorem Stage.allocates_of_dialing {s : Stage} {pair : ReservationPair} (h : s.dialing = some pair) :
    s.allocates = true := by
  cases s with
  | pairClaimed | callQueued | callInitiated | callOriginated | agentReturned => rfl
  | _ => cases h

theorem Stage.allocates_next {s : Stage} (hs : s.allocates = false) (o : Op)
    (r : Except Exn (Res o)) : (s.next o r).allocates = false := by
  have h := s.precedes_next o r
  generalize s.next o r = s' at h
  cases h with
  | stays => exact hs
  | isStruck e hdialing => cases hs.symm.trans (allocates_of_dialing hdialing)
  | records | repeats | finds | applies | reads | settlesAgent | closes | fails | queries => rfl
  | _ => cases hs

theorem Emits.plain {s : Stage} {o : Op} (h : Emits s o) (hs : s.allocates = false) :
    Readiness.staged o = false := by
  cases h <;> first | rfl | cases hs

/-- Every job keeps to the conduct. -/
theorem readiness_conforms (cfg : Config) : (readiness cfg).Conforms fun _ _ _ => True := by
  -- only `allocate` performs what the second conduct is about
  have hother : ∀ job : Job, job.start.allocates = false →
      (readiness cfg).Follows .free (job.program cfg) fun _ _ => True := by
    intro job hjob
    have hfollows : (system cfg).Follows job.start (job.program cfg) (Finished job) :=
      system_conforms job
    refine follows_plain (hfollows.performs (J := fun s => s.allocates = false) (fun s o hs h => ?_) hjob)
    exact ⟨Emits.plain h hs, Stage.allocates_next hs o⟩
  intro job
  cases job with
  | allocate campaign approved workerId =>
    show (readiness cfg).Follows Readiness.free
      ((CallAllocator.allocate cfg campaign approved workerId).bind fun result =>
        Prog.ret (Outcome.allocation result)) fun _ _ => True
    rw [follows_bind]
    refine (readiness_allocateLoop _ _ _).mono fun s r _ => ?_
    cases r <;> trivial
  | processEvent event => exact hother (.processEvent event) rfl
  | runSweeps => exact hother .runSweeps rfl
  | agentAction agentId action => exact hother (.agentAction agentId action) rfl
  | releaseFinishedWrapUps campaign => exact hother (.releaseFinishedWrapUps campaign) rfl

theorem readying_conforms (cfg : Config) :
    (readying cfg).Conforms fun job t r => Finished job t.1 r ∧ True :=
  system_conforms.both (readiness_conforms cfg)

end SmartDialer
