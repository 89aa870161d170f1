import SmartDialer.Calls.Readiness
import SmartDialer.System.Effects

/-!
# No borrower is rung without an agent

From the reservation of an agent to the originate a dial has the agent in hand, and from the
reservation of a borrower also him. If nobody else writes to what a dial has in hand, the agent is
dialing for this very call when the provider is asked to ring.

* `Hand`, `Stage.hand`: what a dial has in hand, and how it left it.
* `Standing.op`: its own steps; `Standing.untouched`: those of the others.
* `standing_preserves`: both, along a run in which nobody touches another one's hand.
* `rings_with_agent`: the hand at the originate.
-/

namespace SmartDialer

open Concurrent Machine DocStore

/-! ## What a dial has in hand

The hand follows the two steps before the originate: reserved, dialing, bound. It is known to stand
only as long as each step is answered, and the readiness of the dial says how far that is. -/

/-- The agent, and from its reservation on the borrower, as the dial of `workerId` left them. -/
structure Hand where
  agentId : DocId
  workerId : WorkerId
  state : AgentState
  version : Option Nat := none
  callId : Option DocId := none
  borrowerId : Option DocId := none
  deriving DecidableEq

/-- The hand of a dial that has its pair. -/
def ReservationPair.hand (pair : ReservationPair) (state : AgentState) (version : Option Nat)
    (callId : Option DocId) : Hand where
  agentId := pair.agent.id
  workerId := pair.workerId
  state := state
  version := version
  callId := callId
  borrowerId := some pair.borrower.id

/-- The hand at a stage, by the readiness of the dial. -/
def Stage.hand : Stage → Readiness → Option Hand
  | .agentClaimed _ workerId agent, .claimed version =>
    some { agentId := agent.id, workerId, state := .RESERVED, version }
  | .pairClaimed _ pair, .claimed version => some (pair.hand .RESERVED version none)
  | .callQueued _ pair _, .claimed version => some (pair.hand .RESERVED version none)
  | .callInitiated _ pair _, .claimed version => some (pair.hand .RESERVED version none)
  | .callInitiated _ pair _, .dialing => some (pair.hand .DIALING none none)
  | .callInitiated _ pair callId, .bound => some (pair.hand .DIALING none (some callId))
  | _, _ => none

/-- Agent and borrower stand as the dial left them. -/
structure Hand.Stands (h : Hand) (σ : Store) : Prop where
  agent : ∃ g, σ.agents.get? h.agentId = some g ∧ g.state = h.state
    ∧ g.reservedBy = some h.workerId ∧ (∀ v ∈ h.version, g.stateVersion = v)
    ∧ ∀ c ∈ h.callId, g.currentCallId = some c
  borrower : ∀ b ∈ h.borrowerId, ∃ g, σ.borrowers.get? b = some g ∧ g.status = .RESERVED
    ∧ g.reservedBy = some h.workerId

/-! ## Touching

Other threads may write to an agent, as a heartbeat does, if they leave alone what the dial relies
on. -/

/-- State, version, reservation and binding are the same. -/
def SameAgent (g g' : Agent) : Prop :=
  g'.state = g.state ∧ g'.stateVersion = g.stateVersion ∧ g'.reservedBy = g.reservedBy
    ∧ g'.currentCallId = g.currentCallId

/-- Status and reservation are the same. -/
def SameBorrower (g g' : Borrower) : Prop := g'.status = g.status ∧ g'.reservedBy = g.reservedBy

/-- Whatever the hand names is the same before and after. -/
def Hand.Untouched (h : Hand) (σ σ' : Store) : Prop :=
  (∀ g, σ.agents.get? h.agentId = some g → ∃ g', σ'.agents.get? h.agentId = some g' ∧ SameAgent g g')
  ∧ ∀ b ∈ h.borrowerId, ∀ g, σ.borrowers.get? b = some g →
    ∃ g', σ'.borrowers.get? b = some g' ∧ SameBorrower g g'

theorem Hand.Untouched.of_eq {h : Hand} {σ σ' : Store} (hagents : σ'.agents = σ.agents)
    (hborrowers : σ'.borrowers = σ.borrowers) : h.Untouched σ σ' := by
  refine ⟨fun g hg => ⟨g, ?_, rfl, rfl, rfl, rfl⟩, fun b _ g hg => ⟨g, ?_, rfl, rfl⟩⟩
  · rw [hagents, hg]
  · rw [hborrowers, hg]

theorem Hand.Stands.untouched {h : Hand} {σ σ' : Store} (hstands : h.Stands σ)
    (huntouched : h.Untouched σ σ') : h.Stands σ' := by
  obtain ⟨⟨g, hg, hstate, hworker, hversion, hcall⟩, hborrower⟩ := hstands
  constructor
  · obtain ⟨g', hg', hsame⟩ := huntouched.1 g hg
    obtain ⟨hstate', hversion', hworker', hcall'⟩ := hsame
    refine ⟨g', hg', hstate'.trans hstate, hworker'.trans hworker, fun v hv => ?_, fun c hc => ?_⟩
    · rw [hversion', hversion v hv]
    · rw [hcall', hcall c hc]
  · intro b hb
    obtain ⟨d, hd, hstatus, hholder⟩ := hborrower b hb
    obtain ⟨d', hd', hstatus', hholder'⟩ := huntouched.2 b hb d hd
    exact ⟨d', hd', hstatus'.trans hstatus, hholder'.trans hholder⟩

/-! ## What a dial does to its own hand

One lemma for each stage. Only the reservations bring something into the hand; the transition and
the binding change it, each from the state in which the step before has left it. -/

/-- The agent has not been moved yet, as far as is known. -/
def Readiness.early : Readiness → Prop
  | .free | .claimed _ => True
  | .dialing | .bound => False

/-- Before the call is initiated the agent has not been moved; from the originate on nothing is
followed. -/
def Stage.loose : Stage → Readiness → Prop
  | .agentClaimed .., ready | .pairClaimed .., ready | .callQueued .., ready => ready.early
  | .callOriginated .., ready => ready = .free
  | _, _ => True

/-- The hand of the thread stands, if it has one. -/
structure Standing (σ : Store) (s : Stage) (ready : Readiness) : Prop where
  stands : ∀ h ∈ s.hand ready, h.Stands σ
  loose : s.loose ready

theorem Standing.of_no_hand {σ : Store} {s : Stage} {ready : Readiness} (hhand : s.hand ready = none)
    (hloose : s.loose ready) : Standing σ s ready where
  stands := fun h hh => by rw [hhand] at hh; cases hh
  loose := hloose

theorem hand_of_not_allocates {s : Stage} (hs : s.allocates = false) (ready : Readiness) :
    s.hand ready = none := by
  cases s with
  | allocating | agentClaimed | pairClaimed | callQueued | callInitiated | callOriginated
  | agentReturned | compensating => cases hs
  | _ => rfl

theorem loose_of_not_allocates {s : Stage} (hs : s.allocates = false) (ready : Readiness) :
    s.loose ready := by
  cases s with
  | allocating | agentClaimed | pairClaimed | callQueued | callInitiated | callOriginated
  | agentReturned | compensating => cases hs
  | _ => trivial

/-- An operation that writes to no agent and no borrower leaves a hand standing. -/
theorem Hand.Stands.after_exec {h : Hand} {σ : Store} (hstands : h.Stands σ) {o : Op}
    (hagents : o.writesAgents = false) (hborrowers : o.writesBorrowers = false) (env : Env) :
    h.Stands (exec env o σ).2 :=
  hstands.untouched (.of_eq (exec_agents_eq hagents env σ) (exec_borrowers_eq hborrowers env σ))

section Step

variable {σ : Store} {ready ready' : Readiness} {o : Op} {env : Env}

/-- A step that writes to no agent and no borrower and takes nothing new in hand. -/
theorem Standing.keep {s s' : Stage} (h : Standing σ s ready)
    (hsub : ∀ x ∈ s'.hand ready', x ∈ s.hand ready) (hloose : s'.loose ready')
    (hagents : o.writesAgents = false) (hborrowers : o.writesBorrowers = false) :
    Standing (exec env o σ).2 s' ready' where
  stands := fun x hx => (h.stands x (hsub x hx)).after_exec hagents hborrowers env
  loose := hloose

theorem standing_struck (pair : ReservationPair) (e : Exn) : Standing σ (pair.struck e) ready := by
  cases e <;> exact .of_no_hand rfl trivial

/-- An agent is won, as reserved at his version. -/
theorem Standing.op_allocating {campaign : Campaign} {workerId : WorkerId}
    (hemits : Emits (.allocating campaign workerId) o) :
    Standing (exec env o σ).2 (Stage.nextAllocating campaign workerId o (exec env o σ).1)
      (ready.next o (exec env o σ).1) := by
  cases hemits with
  | claimableAgents n => exact .of_no_hand rfl trivial
  | reserveAgent a ttl =>
    rcases hr : (exec env (.tryReserveAgent campaign.id a workerId ttl) σ).1 with e | (_ | agent)
    · exact .of_no_hand rfl trivial
    · exact .of_no_hand rfl trivial
    · obtain ⟨hid, hstate, hworker, hget, -⟩ := reserveAgent_ok hr
      refine ⟨fun x hx => ?_, trivial⟩
      obtain rfl : _ = x := Option.some.inj hx
      refine ⟨⟨agent, hid ▸ hget, hstate, hworker, fun v hv => ?_, fun c hc => ?_⟩, fun b hb => ?_⟩
      · exact Option.some.inj hv
      · cases hc
      · cases hb

/-- A borrower is won, or the agent goes back. Reserving a borrower does not touch the agent. -/
theorem Standing.op_agentClaimed {campaign : Campaign} {workerId : WorkerId} {agent : Agent}
    (h : Standing σ (.agentClaimed campaign workerId agent) ready)
    (hemits : Emits (.agentClaimed campaign workerId agent) o) :
    Standing (exec env o σ).2 (Stage.nextAgentClaimed campaign workerId agent o (exec env o σ).1)
      (ready.next o (exec env o σ).1) := by
  -- looking for a borrower does not touch the agent
  cases hemits with
  | claimableBorrowers n =>
    rw [Readiness.next_of_steady rfl]
    exact h.keep (fun x hx => hx) h.loose rfl rfl
  | returnLoneAgent => exact .of_no_hand rfl trivial
  | reserveBorrower b ttl =>
    rw [Readiness.next_of_steady rfl]
    have hagents := exec_agents_eq (o := .tryReserveBorrower campaign.id b workerId ttl) rfl env σ
    -- the agent still stands, without a borrower
    have hagent : ∀ x ∈ (Stage.agentClaimed campaign workerId agent).hand ready,
        x.Stands (exec env (.tryReserveBorrower campaign.id b workerId ttl) σ).2 := by
      intro x hx
      refine ⟨?_, fun b' hb' => ?_⟩
      · rw [hagents]
        exact (h.stands x hx).agent
      · cases ready <;> cases hx
        cases hb'
    rcases hr : (exec env (.tryReserveBorrower campaign.id b workerId ttl) σ).1 with e | (_ | borrower)
    · exact ⟨hagent, h.loose⟩
    · exact ⟨hagent, h.loose⟩
    · obtain ⟨hid, hstatus, hworker, hget, -⟩ := reserveBorrower_ok hr
      refine ⟨fun x hx => ?_, h.loose⟩
      cases ready with
      | claimed version =>
        obtain rfl : _ = x := Option.some.inj hx
        refine ⟨(hagent _ rfl).agent, fun b' hb' => ?_⟩
        obtain rfl : borrower.id = b' := Option.some.inj hb'
        exact ⟨borrower, hid ▸ hget, hstatus, hworker⟩
      | free => cases hx
      | dialing => cases hx
      | bound => cases hx

theorem Standing.taken {campaign : Campaign} {pair : ReservationPair}
    (h : Standing σ (.pairClaimed campaign pair) ready) (created : Call)
    (hagents : o.writesAgents = false) (hborrowers : o.writesBorrowers = false) :
    Standing (exec env o σ).2 (Stage.nextPairClaimed.taken campaign pair created) ready := by
  unfold Stage.nextPairClaimed.taken
  split
  · refine h.keep (fun x hx => ?_) h.loose hagents hborrowers
    cases ready <;> exact hx
  · exact h.keep (fun x hx => hx) h.loose hagents hborrowers

/-- Up to the call nothing in hand is written to, except that it may be given back. The insertion,
the retry gate and the lookup of the key do not touch the two parties. -/
theorem Standing.op_pairClaimed {campaign : Campaign} {pair : ReservationPair}
    (h : Standing σ (.pairClaimed campaign pair) ready)
    (hemits : Emits (.pairClaimed campaign pair) o) :
    Standing (exec env o σ).2 (Stage.nextPairClaimed campaign pair o (exec env o σ).1)
      (ready.next o (exec env o σ).1) := by
  cases hemits with
  | retryClock | retryGate =>
    rw [Readiness.next_of_steady rfl]
    rcases (exec env _ σ).1 with e | r
    · exact standing_struck pair e
    · exact h.keep (fun x hx => hx) h.loose rfl rfl
  -- the lookup by key follows a taken key; every other exception ends the dial
  | createCall =>
    rw [Readiness.next_of_steady rfl]
    rcases (exec env _ σ).1 with e | created
    · cases e with
      | duplicateKey => exact h.keep (fun x hx => hx) h.loose rfl rfl
      | _ => exact .of_no_hand rfl trivial
    · exact h.taken created rfl rfl
  | findExisting =>
    rw [Readiness.next_of_steady rfl]
    rcases (exec env _ σ).1 with e | (_ | existing)
    · exact standing_struck pair e
    · exact h.keep (fun x hx => hx) h.loose rfl rfl
    · exact h.taken existing rfl rfl
  | returnAgent =>
    rcases (exec env _ σ).1 with e | r
    · exact standing_struck pair e
    · exact .of_no_hand rfl trivial

/-- The two transitions of the call. -/
theorem Standing.op_callQueued {campaign : Campaign} {pair : ReservationPair} {callId : DocId}
    (h : Standing σ (.callQueued campaign pair callId) ready)
    (hemits : Emits (.callQueued campaign pair callId) o) :
    Standing (exec env o σ).2 (Stage.nextCallQueued campaign pair callId o (exec env o σ).1)
      (ready.next o (exec env o σ).1) := by
  have hearly : ready.early := h.loose
  cases hemits with
  | reserveCall =>
    rw [Readiness.next_of_steady rfl]
    rcases (exec env _ σ).1 with e | (_ | d)
    · exact standing_struck pair e
    · exact h.keep (fun x hx => hx) hearly rfl rfl
    · exact h.keep (fun x hx => hx) hearly rfl rfl
  | initiateCall =>
    rw [Readiness.next_of_steady rfl]
    rcases (exec env _ σ).1 with e | (_ | d)
    · exact standing_struck pair e
    · refine h.keep (fun x hx => ?_) hearly rfl rfl
      cases ready <;> exact hx
    · refine h.keep (fun x hx => ?_) trivial rfl rfl
      cases ready with
      | free | claimed => exact hx
      | dialing | bound => exact hearly.elim

/-- The transition to `DIALING` finds the agent as the dial reserved him. -/
theorem Hand.Stands.dial {pair : ReservationPair} {version : Nat} {callId : Option DocId}
    (h : (pair.hand .RESERVED (some version) callId).Stands σ) {r : Option Agent}
    (hr : (exec env (.transitionAgent pair.agent.id .RESERVED .DIALING .ALLOCATOR version) σ).1
      = .ok r) :
    (pair.hand .DIALING none none).Stands
      (exec env (.transitionAgent pair.agent.id .RESERVED .DIALING .ALLOCATOR version) σ).2 := by
  obtain ⟨⟨g, hg, hstate, hworker, hversion, -⟩, hborrower⟩ := h
  have hstate : g.state = .RESERVED := hstate
  obtain rfl : g.stateVersion = version := hversion version rfl
  have hget := AgentRepo.get?_transitionAgent hg env.now .DIALING
  rw [hstate] at hget
  constructor
  · refine ⟨AgentRepo.transitionUpdate env.now .RESERVED .DIALING g, ?_, rfl, hworker,
      fun _ hv => (by cases hv), fun _ hc => (by cases hc)⟩
    rw [exec_of_ok hr]
    exact hget
  · intro b hb
    rw [exec_borrowers_eq rfl]
    exact hborrower b hb

theorem Hand.Stands.bind {pair : ReservationPair} {callId : DocId}
    (h : (pair.hand .DIALING none none).Stands σ) {r : Option Agent}
    (hr : (exec env (.bindCall pair.agent.id pair.workerId callId) σ).1 = .ok r) :
    (pair.hand .DIALING none (some callId)).Stands
      (exec env (.bindCall pair.agent.id pair.workerId callId) σ).2 := by
  obtain ⟨⟨g, hg, hstate, hworker, -, -⟩, hborrower⟩ := h
  constructor
  · refine ⟨{ g with currentCallId := some callId }, ?_, hstate, hworker,
      fun _ hv => (by cases hv), fun _ hc => hc⟩
    rw [exec_of_ok hr]
    exact AgentRepo.get?_bindCall hg hworker callId
  · intro b hb
    rw [exec_borrowers_eq rfl]
    exact hborrower b hb

/-- The transition, the binding, and the originate, after which nothing is followed. Here the agent
is written to, and the answers say what he looks like: `DIALING` one version on, then bound to the
call. -/
theorem Standing.op_callInitiated {campaign : Campaign} {pair : ReservationPair} {callId : DocId}
    (h : Standing σ (.callInitiated campaign pair callId) ready)
    (hemits : Emits (.callInitiated campaign pair callId) o) (hready : Readiness.Emits ready o) :
    Standing (exec env o σ).2 (Stage.nextCallInitiated campaign pair callId o (exec env o σ).1)
      (ready.next o (exec env o σ).1) := by
  cases hemits with
  | agentDials version =>
    cases hready with
    | plain _ ho => cases ho
    | dial =>
      rcases hr : (exec env _ σ).1 with e | r
      · exact standing_struck pair e
      · refine ⟨fun x hx => ?_, trivial⟩
        obtain rfl : _ = x := Option.some.inj hx
        -- the agent is set to `DIALING` here, and bound to the call below
        exact (h.stands _ rfl).dial hr
  | bindCall =>
    cases hready with
    | plain _ ho => cases ho
    | bind =>
      rcases hr : (exec env _ σ).1 with e | r
      · exact standing_struck pair e
      · refine ⟨fun x hx => ?_, trivial⟩
        obtain rfl : _ = x := Option.some.inj hx
        exact (h.stands _ rfl).bind hr
  | originate name request hid =>
    rcases (exec env _ σ).1 with e | r
    · exact standing_struck pair e
    · cases ready <;> exact .of_no_hand rfl rfl

/-- From the originate on there is nothing to show. -/
theorem Standing.op_callOriginated {campaign : Campaign} {pair : ReservationPair} {callId : DocId}
    (h : Standing σ (.callOriginated campaign pair callId) ready)
    (hemits : Emits (.callOriginated campaign pair callId) o) :
    Standing (exec env o σ).2 (Stage.nextCallOriginated campaign pair callId o (exec env o σ).1)
      (ready.next o (exec env o σ).1) := by
  obtain rfl : ready = .free := h.loose
  -- the version read with the agent has been used: no operation here depends on it
  cases hemits with
  | awaitAnswer | hangup =>
    rw [Readiness.next_of_steady rfl]
    rcases (exec env _ σ).1 with e | r
    · cases e <;> exact .of_no_hand rfl (by first | rfl | trivial)
    · exact .of_no_hand rfl rfl
  | sampleHealth =>
    rw [Readiness.next_of_steady rfl]
    rcases (exec env _ σ).1 with e | r
    · exact standing_struck pair e
    · exact .of_no_hand rfl rfl
  | attach =>
    rw [Readiness.next_of_steady rfl]
    rcases (exec env _ σ).1 with e | (_ | d)
    · exact standing_struck pair e
    · exact .of_no_hand rfl rfl
    · exact .of_no_hand rfl trivial
  | failCall =>
    rw [Readiness.next_of_steady rfl]
    rcases (exec env _ σ).1 with e | r
    · exact standing_struck pair e
    · exact .of_no_hand rfl trivial

end Step

theorem Standing.of_not_allocates {σ : Store} {s : Stage} (hs : s.allocates = false)
    (ready : Readiness) : Standing σ s ready :=
  .of_no_hand (hand_of_not_allocates hs ready) (loose_of_not_allocates hs ready)

/-- One operation of the thread itself. -/
theorem Standing.op {σ : Store} {s : Stage} {ready : Readiness} (h : Standing σ s ready) {o : Op}
    (env : Env) (hemits : Emits s o) (hready : Readiness.Emits ready o) :
    Standing (exec env o σ).2 (s.next o (exec env o σ).1) (ready.next o (exec env o σ).1) := by
  cases s with
  | allocating campaign workerId => exact .op_allocating hemits
  | agentClaimed campaign workerId agent => exact h.op_agentClaimed hemits
  | pairClaimed campaign pair => exact h.op_pairClaimed hemits
  | callQueued campaign pair callId => exact h.op_callQueued hemits
  | callInitiated campaign pair callId => exact h.op_callInitiated hemits hready
  | callOriginated campaign pair callId => exact h.op_callOriginated hemits
  | agentReturned campaign pair =>
    show Standing _ (Stage.nextAgentReturned campaign pair o (exec env o σ).1) _
    unfold Stage.nextAgentReturned
    split
    · exact .of_no_hand rfl trivial
    · exact standing_struck pair _
  | compensating pair => exact .of_no_hand rfl trivial
  | idle | eventReceived | eventRecorded | eventMatched | eventApplied | eventAgentReturned
  | eventClosing | eventDuplicate | eventFailed | sweeping | acting | wrapping =>
    exact .of_not_allocates (Stage.allocates_next rfl o _) _

/-! ## Nobody else touches what a dial has in hand

The regime asks this of every step and of every other dial. It asks nothing of a step about the hand
of its own thread. -/

/-- No step of a thread changes the agent or the borrower that another dial has in hand. -/
def undisturbed : Regime Job Op Store Env (Stage × Readiness) where
  admits := fun _ => True
  guard := fun σ live p o env =>
    ∀ q ≠ p, ∀ h ∈ (live q).1.hand (live q).2, h.Untouched σ (exec env o σ).2

theorem Standing.untouched {σ σ' : Store} {s : Stage} {ready : Readiness} (h : Standing σ s ready)
    (huntouched : ∀ x ∈ s.hand ready, x.Untouched σ σ') : Standing σ' s ready where
  stands := fun x hx => (h.stands x hx).untouched (huntouched x hx)
  loose := h.loose

theorem Standing.start (σ : Store) (job : Job) : Standing σ job.start .free := by
  cases job <;> exact .of_no_hand rfl trivial

/-- Every thread stands, along every undisturbed run. -/
theorem standing_preserves (cfg : Config) :
    (readying cfg).PreservesRunning undisturbed fun σ _ st =>
      ∀ q, Standing σ (st q).1 (st q).2 := by
  have hset : ∀ {σ : Store} {st : Nat → Stage × Readiness} {t : Stage × Readiness} (p : Nat),
      (∀ q ≠ p, Standing σ (st q).1 (st q).2) → Standing σ t.1 t.2 →
      ∀ q, Standing σ (Function.update st p t q).1 (Function.update st p t q).2 := by
    intro σ st t p hothers ht q
    by_cases hq : q = p
    · rw [hq, Function.update_self]
      exact ht
    · rw [Function.update_of_ne hq]
      exact hothers q hq
  constructor
  · intro σ tr st p job h _ _
    exact hset p (fun q _ => h q) (.start σ job)
  · intro σ tr st p o env h hemits hguard
    exact hset p (fun q hq => (h q).untouched (hguard q hq)) ((h p).op env hemits.1 hemits.2)
  · intro σ tr st p h
    exact hset p (fun q _ => h q) (.of_no_hand rfl trivial)

/-! ## Who dials

The worker of a dial is the one for whom its thread was started. -/

/-- The worker for whom the thread allocates. -/
def Stage.dialer : Stage → Option WorkerId
  | .allocating _ workerId | .agentClaimed _ workerId _ => some workerId
  | .pairClaimed _ pair | .callQueued _ pair _ | .callInitiated _ pair _ | .callOriginated _ pair _
  | .agentReturned _ pair | .compensating pair => some pair.workerId
  | _ => none

theorem dialer_struck (pair : ReservationPair) (e : Exn) :
    ∀ w ∈ (pair.struck e).dialer, w = pair.workerId := by
  cases e <;> simp [ReservationPair.struck, Stage.dialer]

theorem dialer_of_dialing {s : Stage} {pair : ReservationPair} (h : s.dialing = some pair) :
    s.dialer = some pair.workerId := by
  cases s with
  | pairClaimed | callQueued | callInitiated | callOriginated | agentReturned => cases h; rfl
  | _ => cases h

theorem dialer_next (s : Stage) (o : Op) (r : Except Exn (Res o)) :
    ∀ w ∈ (s.next o r).dialer, some w = s.dialer := by
  have h := s.precedes_next o r
  generalize s.next o r = s' at h
  intro w hw
  cases h with
  | isStruck e hs =>
    rw [dialer_of_dialing hs, dialer_struck _ e w hw]
  | closes | fails => cases hw
  | _ => exact hw.symm

/-- A world in which the readiness of each thread is on record. -/
abbrev ReadyWorld := World Job Op Res Exn Store Env Outcome (Stage × Readiness)

/-- Whoever dials was started to allocate for that worker. -/
theorem job_of_dialer {cfg : Config} {R : Regime Job Op Store Env (Stage × Readiness)} {σ₀ : Store}
    {w : ReadyWorld} (h : Reachable (readying cfg) R (World.fresh σ₀) w) :
    ∀ p t, w.threads p = some t → ∀ workerId ∈ t.stage.1.dialer,
      ∃ campaign approved, t.job = .allocate campaign approved workerId := by
  refine h.threads (P := fun job s => ∀ workerId ∈ s.1.dialer,
    ∃ campaign approved, job = .allocate campaign approved workerId) (fun job => ?_)
    (fun job s o r hjob workerId hw => hjob workerId (dialer_next s.1 o r workerId hw).symm)
    fun p t ht => by cases ht
  intro workerId hw
  cases job with
  | allocate campaign approved _ =>
    cases hw
    exact ⟨campaign, approved, rfl⟩
  | _ => cases hw

/-! ## Ringing

What the provider is asked is put in terms of the store: the call names an agent, and he is dialing
for this call. -/

/-- The call that is about to be originated is that of an agent who is dialing for it, and of a
borrower reserved for the same worker. -/
structure Rung (σ : Store) (callId : DocId) (workerId : WorkerId) : Prop where
  agent : ∃ d g, σ.calls.get? callId = some d ∧ σ.agents.get? d.agentId = some g
    ∧ g.state = .DIALING ∧ g.reservedBy = some workerId ∧ g.currentCallId = some callId
  borrower : ∃ d b, σ.calls.get? callId = some d ∧ σ.borrowers.get? d.borrowerId = some b
    ∧ b.status = .RESERVED ∧ b.reservedBy = some workerId

/-- At every invocation of `originate_call` the call is `Rung`. -/
def RingsWithAgent (w : ReadyWorld) : Prop :=
  ∀ p t name request k, w.threads p = some t → t.crashed = false →
    t.prog = .op (.originateCall name request) k →
    ∃ campaign approved workerId, t.job = .allocate campaign approved workerId
      ∧ Rung w.store request.callId workerId

/-- A dial that stands at its originate rings with its agent. -/
theorem Standing.rung {σ : Store} {campaign : Campaign} {pair : ReservationPair} {callId : DocId}
    (h : Standing σ (.callInitiated campaign pair callId) .bound)
    (hknows : (Stage.callInitiated campaign pair callId).Knows σ.calls) :
    Rung σ callId pair.workerId := by
  obtain ⟨d, hd, hfor, -⟩ := hknows
  obtain ⟨⟨g, hg, hstate, hworker, -, hcall⟩, hborrower⟩ := h.stands _ rfl
  obtain ⟨b, hb, hstatus, hholder⟩ := hborrower _ rfl
  constructor
  · exact ⟨d, g, hd, hfor.agentId ▸ hg, hstate, hworker, hcall callId rfl⟩
  · exact ⟨d, b, hd, hfor.borrowerId ▸ hb, hstatus, hholder⟩

/-- **No borrower is rung without an agent** in a run in which nobody touches the agent and the
borrower that a dial of another thread has in hand: whenever the provider is asked to ring, the
agent is dialing for this very call and the borrower is reserved. -/
theorem rings_with_agent {cfg : Config} {σ₀ : Store} {w : ReadyWorld} (h₀ : CallsSound σ₀.calls)
    (h : Reachable (readying cfg) undisturbed (World.fresh σ₀) w) : RingsWithAgent w := by
  intro p t name request k ht hcrashed hprog
  have hfacts : CallFacts w.store fun q => (w.stageOf (readying cfg) q).1 :=
    h.invariant_running (readying_conforms cfg)
      ((CallFacts.preservesRunning cfg SystemRegime.anything).both (fun _ _ => trivial)
        fun _ _ _ _ _ _ => trivial) (World.Obeys.fresh _ σ₀) ⟨h₀, fun _ => trivial⟩
  have hstanding := h.invariant_running (readying_conforms cfg) (standing_preserves cfg)
    (World.Obeys.fresh _ σ₀) (fun _ => .of_no_hand rfl trivial) p
  have hknows := hfacts.knows p
  have hstage : w.stageOf (readying cfg) p = t.stage := by
    simp [World.stageOf, ht, Thread.running, hprog, hcrashed]
  have hfollow := (h.obeys (readying_conforms cfg) (World.Obeys.fresh _ σ₀)).follows p t ht
  have hdialer := job_of_dialer h p t ht
  rw [hprog] at hfollow
  rw [hstage] at hknows hstanding
  obtain ⟨hemits, hready⟩ := hfollow.1
  -- an originate is emitted at one stage only, and there the dial has its call and its agent
  generalize t.stage = s at hknows hstanding hdialer hemits hready
  obtain ⟨s, ready⟩ := s
  cases hready with
  | plain _ ho => cases ho
  | originate =>
    cases hemits with
    | originate _ _ hid =>
      obtain ⟨campaign, approved, hjob⟩ := hdialer _ rfl
      exact ⟨campaign, approved, _, hjob, hid ▸ hstanding.rung hknows⟩

/-! The theorem at two dials that are undisturbed though they run side by side, and a dial whose agent
logs out before the originate. -/

/-- Both workers stand before their originate; the second one has lost a claim to the first. -/
def ringingActions : List (Action Job Env) := sideBySideActions 9 ++ [.perform 1 secondEnv]

/-- Both workers are about to originate. -/
def ringing : ReadyWorld := (World.fresh twoPairs).acts (readying {}) ringingActions

/-- The documents that a dial has in hand are the same. -/
def Hand.same (h : Hand) (σ σ' : Store) : Bool :=
  σ'.agents.get? h.agentId = σ.agents.get? h.agentId
    && h.borrowerId.all fun b => σ'.borrowers.get? b = σ.borrowers.get? b

theorem Hand.untouched_of_same {h : Hand} {σ σ' : Store} (hsame : h.same σ σ' = true) :
    h.Untouched σ σ' := by
  simp only [Hand.same, Bool.and_eq_true, decide_eq_true_eq] at hsame
  obtain ⟨hagent, hborrower⟩ := hsame
  refine ⟨fun g hg => ⟨g, hagent.trans hg, rfl, rfl, rfl, rfl⟩, fun b hb g hg => ⟨g, ?_, rfl, rfl⟩⟩
  rw [Option.mem_def.mp hb] at hborrower
  exact (of_decide_eq_true hborrower).trans hg

/-- The operation leaves the hand of the other worker as it is. -/
def leavesHands (w : ReadyWorld) : Action Job Env → Bool
  | .perform p env => (w.threads p).all fun t => match t.prog with
    | .op o _ => [0, 1].all fun q => q = p
      || ((w.stageOf (readying {}) q).1.hand (w.stageOf (readying {}) q).2).all fun h =>
        h.same w.store (exec env o w.store).2
    | _ => true
  | _ => true

/-- Decided along the run. -/
theorem ringing_reachable : Reachable (readying {}) undisturbed (World.fresh twoPairs) ringing := by
  refine Reachable.of_checked_among [0, 1] leavesHands (fun w a hidle hok => ?_)
    (Action.mem_of_startsAmong (by decide)) (fun _ _ => rfl) .refl (by decide +kernel)
  cases a with
  | spawn p job => trivial
  | crash p => trivial
  | perform p env =>
    intro t o k ht _ hprog q hq h hh
    by_cases hmem : q ∈ [0, 1]
    · unfold leavesHands at hok
      simp only [ht, Option.all_some, hprog, List.all_eq_true] at hok
      have hhand := (Bool.or_eq_true _ _).mp (hok q hmem)
      have hsame := hhand.resolve_left fun h => hq (of_decide_eq_true h)
      rw [Option.mem_def.mp hh] at hsame
      exact Hand.untouched_of_same hsame
    · rw [hidle q hmem] at hh
      cases hh

/-- The call that thread `p` asks the provider to ring, and the worker it does this for. -/
def rings (w : ReadyWorld) (p : Nat) : Option (DocId × WorkerId) :=
  (w.threads p).bind fun t => match t.job, t.prog with
    | .allocate _ _ workerId, .op (.originateCall _ request) _ =>
      if t.crashed = false then some (request.callId, workerId) else none
    | _, _ => none

theorem RingsWithAgent.rung {w : ReadyWorld} (h : RingsWithAgent w) {p : Nat} {callId : DocId}
    {workerId : WorkerId} (hrings : rings w p = some (callId, workerId)) :
    Rung w.store callId workerId := by
  obtain ⟨t, ht, hrings⟩ := Option.bind_eq_some_iff.mp hrings
  split at hrings
  · rename_i hthis hprog
    split at hrings
    · rename_i hcrashed
      cases hrings
      obtain ⟨campaign, approved, workerId', hjob, hrung⟩ := h p t _ _ _ ht hcrashed hprog
      cases hthis.symm.trans hjob
      exact hrung
    · cases hrings
  · cases hrings

theorem rings_with_agent_demo :
    Rung ringing.store demoEnv.newId "v" ∧ Rung ringing.store secondEnv.newId "w" := by
  have hrings : RingsWithAgent ringing := rings_with_agent twoPairs_sound ringing_reachable
  have hfirst : rings ringing 0 = some (demoEnv.newId, "v") := by decide +kernel
  have hsecond : rings ringing 1 = some (secondEnv.newId, "w") := by decide +kernel
  exact ⟨hrings.rung hfirst, hrings.rung hsecond⟩

/-- The agent logs out when agent and borrower have been reserved. -/
def deserted : ReadyWorld := (World.fresh demoStore).acts (readying {})
  (.spawn 0 (.allocate demoCampaign 1 "w") :: List.replicate 4 (.perform 0 demoEnv)
    ++ .spawn 1 (.agentAction demoAgent.id "logout") :: List.replicate 2 (.perform 1 demoEnv)
    ++ List.replicate 5 (.perform 0 demoEnv))

theorem borrower_rung_without_agent : ¬ ∀ (cfg : Config) (σ₀ : Store) (w : ReadyWorld),
    CallsSound σ₀.calls → Reachable (readying cfg) ⟨fun _ => True, fun _ _ _ _ _ => True⟩
      (World.fresh σ₀) w → RingsWithAgent w := by
  intro hclaim
  have hrings := hclaim {} demoStore deserted demoStore_sound
    (Reachable.of_acts _ _ (fun _ _ _ => trivial) fun _ _ _ _ => trivial)
  obtain ⟨t, name, request, k, ht, hcrashed, hprog, hid⟩ : ∃ t name request k,
      deserted.threads 0 = some t ∧ t.crashed = false ∧ t.prog = .op (.originateCall name request) k
        ∧ request.callId = demoEnv.newId := ⟨_, _, _, _, rfl, rfl, rfl, rfl⟩
  obtain ⟨campaign, approved, workerId, -, hrung⟩ := hrings 0 t name request k ht hcrashed hprog
  obtain ⟨d, g, -, hg, hstate, -⟩ := hrung.agent
  -- the only agent there is has gone
  have hoffline : ∀ g ∈ deserted.store.agents.docs, g.state = .OFFLINE := by decide +kernel
  rw [hoffline g (Collection.mem_of_get? hg)] at hstate
  cases hstate

end SmartDialer
