import SmartDialer.Calls.Evolution
import SmartDialer.System.Effects
import SmartDialer.Lib.Ownership

/-!
# Who holds which agent and which borrower

The source never writes down who may release an agent or a borrower. Here it is made explicit: a
holder is either a running thread, according to its stage, or an unfinished call that no thread
has claimed. Two variants are needed and one `Discipline` covers them: whether a queued call
that nobody works on counts as a holder, and which of agents and borrowers are followed.

The invariant itself is `Own`: every party that is followed has one holder at most, and whoever is
held is busy or reserved in the store. `Held.exec` is the frame of all that follows, since it says
that a party stays held under every write that does not give it back.
-/

namespace SmartDialer

open DocStore Concurrent

/-- What can be held: an agent or a borrower, by id. -/
inductive Party where
  | agent (id : DocId)
  | borrower (id : DocId)
  deriving DecidableEq

/-- Who can hold: a thread by its number, or a call by its id. -/
inductive Holder where
  | thread (p : Nat)
  | call (c : DocId)
  deriving DecidableEq

/-- What a development follows: agents, borrowers or both; whether abandoned queued calls keep
their parties; and whether recovery runs. -/
structure Discipline where
  agents : Bool
  borrowers : Bool
  queuedHolds : Bool
  recovery : Bool
  follows : agents = true ∨ borrowers = true
  recovery_agents : recovery = true → borrowers = false ∧ queuedHolds = false

namespace Discipline

/-- Without recovery a discipline may follow everything, so the condition on agents is empty. -/
theorem without_recovery (borrowers queuedHolds : Bool) (h : false = true) :
    borrowers = false ∧ queuedHolds = false :=
  Bool.noConfusion h

variable (D : Discipline)

/-- Whether the discipline follows the party. -/
def tracks : Party → Bool
  | .agent _ => D.agents
  | .borrower _ => D.borrowers

/-- The worker of a holding matters only while no call changes hands between workers. -/
def tag (workerId : WorkerId) : Option WorkerId :=
  if D.queuedHolds then some workerId else none

/-- A call that keeps its parties when nobody works on it. -/
def Live (d : Call) : Prop :=
  d.terminal = false ∧ (D.queuedHolds = false → d.state ≠ .QUEUED)

end Discipline

/-! ## Holdings

A thread holds what its stage has in hand, and claims the call it works on. An unfinished call that
nobody claims holds its own agent and borrower: these are the calls that have been attached to the
provider and wait for events, and those whose thread has died. -/

/-- Both of the pair, for the worker who has reserved them. -/
def ReservationPair.holdings (pair : ReservationPair) : List (Party × WorkerId) :=
  [(.agent pair.agent.id, pair.workerId), (.borrower pair.borrower.id, pair.workerId)]

/-- The agent and the borrower of a call, for the worker who created it. -/
def Call.holdings (d : Call) : List (Party × WorkerId) :=
  [(.agent d.agentId, d.createdByWorker), (.borrower d.borrowerId, d.createdByWorker)]

@[simp] theorem Call.holdings_fromMongo (d : Call) : d.fromMongo.holdings = d.holdings := rfl

theorem Call.Evolves.holdings {d d' : Call} (h : d.Evolves d') : d'.holdings = d.holdings := by
  unfold Call.holdings
  rw [h.agentId, h.borrowerId, h.createdByWorker]

namespace Stage

/-- What a thread holds at a stage. An allocator holds from the first reservation to the attached
call; an event processor holds the parties of the call that its event has finished, until it has
released them. -/
def holdings : Stage → List (Party × WorkerId)
  | .agentClaimed _ workerId agent => [(.agent agent.id, workerId)]
  | .pairClaimed _ pair => pair.holdings
  | .callQueued _ pair _ => pair.holdings
  | .callInitiated _ pair _ => pair.holdings
  | .callOriginated _ pair _ => pair.holdings
  | .agentReturned _ pair => [(.borrower pair.borrower.id, pair.workerId)]
  | .eventApplied _ updated targetState _ =>
    if CallSm.isTerminal targetState then updated.holdings else []
  | .eventAgentReturned _ updated _ => [(.borrower updated.borrowerId, updated.createdByWorker)]
  | _ => []

/-- The unfinished call a thread works on, if it works on one. As long as it is claimed, the thread
and not the call is the holder. -/
def claim : Stage → Option DocId
  | .callQueued _ _ c => some c
  | .callInitiated _ _ c => some c
  | .callOriginated _ _ c => some c
  | _ => none

/-- What else a stage says, beyond `Knows`, as long as nobody interferes: a claimed call has no
provider id yet, so that no event can find it, and was created for the same worker as the pair. -/
def Claims (D : Discipline) (calls : Calls) : Stage → Prop
  | .callQueued _ pair c => ∃ d, calls.get? c = some d ∧ d.providerCallId = none
      ∧ D.tag d.createdByWorker = D.tag pair.workerId
      ∧ (d.terminal = true ∨ d.stateRank < CallSm.rank .INITIATED)
  | .callInitiated _ pair c => ∃ d, calls.get? c = some d ∧ d.providerCallId = none
      ∧ D.tag d.createdByWorker = D.tag pair.workerId
  | .callOriginated _ pair c => ∃ d, calls.get? c = some d ∧ d.providerCallId = none
      ∧ D.tag d.createdByWorker = D.tag pair.workerId
  | .eventApplied _ updated _ agent => ∀ g ∈ agent, g.id = updated.agentId
  | .compensating _ => False
  | .sweeping _ => D.recovery = true
  | _ => True

end Stage

variable (D : Discipline)

/-- Who holds a party, and on behalf of which worker. -/
def Holds (σ : Store) (st : Nat → Stage) : Holder → Party → Option WorkerId → Prop
  | .thread p, x, tag => D.tracks x = true ∧ ∃ w, (x, w) ∈ (st p).holdings ∧ tag = D.tag w
  | .call c, x, tag => D.tracks x = true ∧ ∃ d, σ.calls.get? c = some d ∧ D.Live d
      ∧ (∀ p, (st p).claim ≠ some c) ∧ ∃ w, (x, w) ∈ d.holdings ∧ tag = D.tag w

/-- What the store says about a held party. -/
def Held (σ : Store) : Party → Option WorkerId → Prop
  | .agent a, tag => ∃ g, σ.agents.get? a = some g ∧ g.state.busy = true
      ∧ ∀ w ∈ tag, g.reservedBy = some w
  | .borrower b, tag => ∃ g, σ.borrowers.get? b = some g ∧ g.status = .RESERVED
      ∧ ∀ w ∈ tag, g.reservedBy = some w

/-- **The ownership invariant.** Holdings are exclusive and true in the store, and every stage's
claims hold. -/
structure Own (σ : Store) (st : Nat → Stage) : Prop where
  owned : Ownership.Owned (Holds D σ st) (Held σ)
  claims : ∀ p, (st p).Claims D σ.calls

/-! ## What the discipline asks of a run

Exclusive holding is not free: the source gives agents away from under their holders in three ways.
A regime that rules these out is said to permit only such operations. -/

/-- Whether a write of `transition_agent` would find its agent. -/
def AgentRepo.Matches (agents : Agents) (a : DocId) (s : AgentState) (version : Nat) : Prop :=
  ∃ g, agents.get? a = some g ∧ g.state = s ∧ g.stateVersion = version

/-- The agent a write of recovery would free, when it takes effect. -/
def RecoveryFrees (agents : Agents) : Op → DocId → Prop
  | .releaseAgent a w t .RECOVERY, k => k = a ∧ ∃ g, agents.get? a = some g
      ∧ g.reservedBy = some w ∧ g.state ∈ AgentSm.allowedSources t .RECOVERY
  | .releaseExpiredAgentLease candidate now, k => k = candidate.id
      ∧ AgentRepo.Matches agents candidate.id candidate.state candidate.stateVersion
      ∧ ∃ g t, agents.get? candidate.id = some g ∧ g.leaseExpiresAt = some t ∧ t < now
  | _, _ => False

/-- What thread `p` may do while the discipline is kept: it is not cancelled inside `_dial`, whose
compensation would give the parties of a live call away; no agent is moved from a busy state to an
idle one under the hands of his holder; recovery frees no agent who has a holder. -/
structure Discipline.Permits (σ : Store) (st : Nat → Stage) (p : Nat) (o : Op) (env : Env) :
    Prop where
  not_cancelled : (st p).dialing ≠ none → ∀ f, env.strikes o = some f → f.exn ≠ .cancelled
  busy_stays : ∀ a s t actor v, o = .transitionAgent a s t actor v → D.agents = true →
    env.lands o = true → AgentRepo.Matches σ.agents a s v → s.busy = true → t.busy = true
  recovery_waits : ∀ a, RecoveryFrees σ.agents o a → D.recovery = true → env.lands o = true →
    ∀ h tag, ¬ Holds D σ st h (.agent a) tag

/-! ## What keeps a party held

Every write on agents and borrowers is conditional. A reservation needs a free party, so it cannot
hit a held one; a release and a reclaim are the writes that give back; everything else leaves state
and worker as they are, except for a transition of an agent, where the discipline is asked. -/

/-- The operations that give a party back. -/
def Op.givesBack : Op → Party → Prop
  | .releaseAgent a .., x => x = .agent a
  | .releaseExpiredAgentLease candidate _, x => x = .agent candidate.id
  | .releaseBorrower b .., x => x = .borrower b
  | .reclaimBorrowerLease candidate _, x => x = .borrower candidate.id
  | _, _ => False

theorem AgentState.not_busy_available {s : AgentState} (h : s = .AVAILABLE) : s.busy = false := by
  rw [h]
  rfl

/-- **A party stays held** under every permitted operation that does not give it back. A write that
could take it away is one of those in `givesBack`, or one that the discipline does not permit. -/
theorem Held.exec {D : Discipline} {σ : Store} {st : Nat → Stage} {p : Nat} {o : Op}
    {env : Env} (hpermits : D.Permits σ st p o env) {x : Party} {tag : Option WorkerId}
    (htracks : D.tracks x = true) (hback : ¬ o.givesBack x) (h : Held σ x tag) :
    Held (exec env o σ).2 x tag := by
  -- every write either needs the party free, or gives it back, or leaves the tag alone
  cases hlands : env.lands o with
  | false =>
    rw [exec_of_not_lands hlands]
    exact h
  | true =>
    cases x with
    | agent a =>
      obtain ⟨g, hg, hbusy, hworker⟩ := h
      have hid : g.id = a := Collection.key_of_get? hg
      obtain ⟨g', hg', hwrite⟩ := exec_agent env o hg
      refine ⟨g', hg', ?_⟩
      cases hwrite with
      | unchanged => exact ⟨hbusy, hworker⟩
      | reserve w ttl hstate =>
        rw [AgentState.not_busy_available hstate] at hbusy
        cases hbusy
      | release => exact absurd (congrArg Party.agent hid.symm) hback
      | transition t actor =>
        exact ⟨hpermits.busy_stays _ _ _ _ _ rfl htracks hlands ⟨g, hid ▸ hg, rfl, rfl⟩ hbusy,
          hworker⟩
      | bind => exact ⟨hbusy, hworker⟩
      | reclaim hk => exact absurd (congrArg Party.agent (hk.trans hid).symm) hback
      | beat => exact ⟨hbusy, hworker⟩
    | borrower b =>
      obtain ⟨g, hg, hstatus, hworker⟩ := h
      have hid : g.id = b := Collection.key_of_get? hg
      obtain ⟨g', hg', hwrite⟩ := exec_borrower env o hg
      refine ⟨g', hg', ?_⟩
      cases hwrite with
      | unchanged => exact ⟨hstatus, hworker⟩
      | reserve w ttl hpending =>
        rw [hpending] at hstatus
        cases hstatus
      | release => exact absurd (congrArg Party.borrower hid.symm) hback
      | reclaim hk => exact absurd (congrArg Party.borrower (hk.trans hid).symm) hback

end SmartDialer
