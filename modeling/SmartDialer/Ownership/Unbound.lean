import SmartDialer.Ownership.Exclusive
import SmartDialer.Ownership.Leases

/-!
# Agents outside a call carry no trace of one

`release_agent` and `release_expired_agent_lease` clear the lease and the bound call;
`transition_agent` leaves both as they are. So an agent may leave a call by a release but not by
logging out, and recovery may free only an agent whom nobody has in hand any more. The discipline
follows agents only, and recovery runs.

* `idleCleared_of_reachable`: the fields of idle agents, an invariant of its own.
* `agents_unbound`: together with the ownership of agents, and what breaks it.
* `offline_but_reserved`: without the rules a logout leaves an agent `OFFLINE` with a lease.
-/

namespace SmartDialer

open DocStore Concurrent Ownership

/-- An idle agent has no lease and no bound call. -/
def IdleCleared (σ : Store) : Prop :=
  ∀ a g, σ.agents.get? a = some g → g.state.busy = false →
    g.toLeaseFields = clearedLeaseFields ∧ g.currentCallId = none

/-- No idle agent is bound to anything, and no live call is about one. -/
structure AgentsUnbound (σ : Store) : Prop where
  cleared : IdleCleared σ
  free : ∀ a g, σ.agents.get? a = some g → g.state.busy = false →
    ∀ c d, σ.calls.get? c = some d → d.Live → d.agentId ≠ a

/-- No running thread has the agent in hand, and no live call is about him. -/
structure LetGo (σ : Store) (st : Nat → Stage) (a : DocId) : Prop where
  threads : ∀ p w, (Party.agent a, w) ∉ (st p).holdings
  calls : ∀ c d, σ.calls.get? c = some d → d.Live → d.agentId ≠ a

/-- An operation that takes a busy agent to an idle state by `transition_agent`: the filter of the
update matches and the write takes place. -/
def WalksOut (σ : Store) (o : Op) (env : Env) : Prop :=
  ∃ a s t actor v, o = .transitionAgent a s t actor v ∧ env.lands o = true
    ∧ AgentRepo.Matches σ.agents a s v ∧ s.busy = true ∧ t.busy = false

/-! ## The rules of the run

The three ways in which the source lets an agent leave a call with its traces on him: a cancelled
dial gives him back while the call goes on, a logout keeps the lease, and recovery frees him by an
expired lease, whoever has him in hand. The last two are asked of the store before the operation. -/

/-- No allocator is cancelled inside `_dial`, where its compensation gives back the agent of a call
that goes on; nobody walks out of a call; recovery waits until an agent is let go. Every other task
may be cancelled at any operation. -/
def SystemRegime.orderly : SystemRegime where
  admits := fun _ => True
  guard := fun σ st p o env =>
    ((st p).dialing ≠ none → ∀ f, env.strikes o = some f → f.exn ≠ .cancelled)
      ∧ ¬ WalksOut σ o env
      ∧ ∀ a, RecoveryFrees σ.agents o a → env.lands o = true → LetGo σ st a

/-- Only agents are followed, and a call holds its agent from `RESERVED` on. A queued call holds
nobody, since recovery may have freed its parties. -/
def Discipline.agentsOnly : Discipline where
  agents := true
  borrowers := false
  queuedHolds := false
  recovery := true
  follows := Or.inl rfl
  recovery_agents := fun _ => ⟨rfl, rfl⟩

theorem Discipline.agentsOnly_live {d : Call} : Discipline.agentsOnly.Live d ↔ d.Live :=
  and_congr_right fun _ => ⟨fun h => h rfl, fun h _ => h⟩

/-- Each rule is what the discipline asks for at one kind of operation. -/
theorem Discipline.agentsOnly_governs :
    Discipline.agentsOnly.Governs SystemRegime.orderly where
  jobs := fun _ => rfl
  ops := fun {σ st p o env} _ _ _ hguard => by
    obtain ⟨hcancel, hwalks, hwaits⟩ := hguard
    refine ⟨hcancel, fun a s t actor v ho _ hlands hmatches hbusy => ?_,
      fun a hfrees _ hlands k tag hholds => ?_⟩
    · cases ht : t.busy with
      | true => rfl
      | false => exact absurd ⟨a, s, t, actor, v, ho, hlands, hmatches, hbusy, ht⟩ hwalks
    · have hletgo := hwaits a hfrees hlands
      cases k with
      | thread q =>
        obtain ⟨-, w, hw, -⟩ := hholds
        exact hletgo.threads q w hw
      | call c =>
        obtain ⟨-, d, hd, hlive, -, w, hw, -⟩ := hholds
        have hagent : d.agentId = a := by
          simp only [Call.holdings, List.mem_cons, List.not_mem_nil, or_false] at hw
          rcases hw with h | h <;> cases h
          rfl
        exact hletgo.calls c d hd (Discipline.agentsOnly_live.mp hlive) hagent

/-! ## Idle agents are cleared

By `AgentWrite`, one case for each write: reservations and bindings end in busy states, releases
clear the fields, and `transition_agent` ends in an idle state only from an idle one, unless
somebody walks out. -/

/-- One operation keeps idle agents cleared, if it is no walking out. A release and a reclaim clear
the lease themselves, and a transition between idle states finds it cleared. -/
theorem IdleCleared.op {σ : Store} (h : IdleCleared σ) {o : Op} {env : Env}
    (hwalks : ¬ WalksOut σ o env) : IdleCleared (exec env o σ).2 := by
  intro a g' hg' hidle
  cases hlands : env.lands o with
  | false =>
    rw [exec_of_not_lands hlands] at hg'
    exact h a g' hg' hidle
  | true =>
    obtain ⟨g, hg, hwrite⟩ := exec_agent_before hg'
    have hcleared := h a g hg
    have hid : g.id = a := Collection.key_of_get? hg
    cases hwrite with
    | unchanged => exact hcleared hidle
    | reserve => cases hidle
    | release => exact ⟨rfl, rfl⟩
    | transition t actor =>
      -- leaving a busy state this way is what the hypothesis excludes
      cases hbusy : g.state.busy with
      | true =>
        exact absurd ⟨_, _, _, _, _, rfl, hlands, ⟨g, hid ▸ hg, rfl, rfl⟩, hbusy, hidle⟩ hwalks
      | false => exact hcleared hbusy
    -- only the owner of the lease binds a call, and an idle agent has none
    | bind callId hworker =>
      have hlease : g.reservedBy = none := congrArg LeaseFields.reservedBy (hcleared hidle).1
      rw [hworker] at hlease
      cases hlease
    | reclaim => exact ⟨rfl, rfl⟩
    | beat => exact hcleared hidle

theorem idleCleared_of_reachable {cfg : Config} {σ₀ : Store} {w : SystemWorld}
    (h₀ : IdleCleared σ₀) (h : Reachable (system cfg) SystemRegime.orderly (World.fresh σ₀) w) :
    IdleCleared w.store := by
  have hpreserves : (system cfg).Preserves SystemRegime.orderly fun σ _ _ => IdleCleared σ :=
    { spawn := fun _ _ h _ _ => h
      op := fun _ _ _ h _ _ hguard => h.op hguard.2.1 }
  exact h.invariant system_conforms hpreserves (World.Obeys.fresh _ σ₀) h₀

/-! ## What breaks it

The converse, for one operation from a state in which the property holds: an operation after which
it holds is no walking out and frees no agent of a live call. -/

/-- An agent who walks out takes his lease along: being busy he has one, by `Leased`, and the
transition does not clear it. -/
theorem AgentsUnbound.not_walksOut {σ : Store} {o : Op} {env : Env} (hleased : Leased σ)
    (h : AgentsUnbound (exec env o σ).2) : ¬ WalksOut σ o env := by
  rintro ⟨a, s, t, actor, v, rfl, hlands, ⟨g, hg, rfl, rfl⟩, hbusy, hidle⟩
  have hafter : (exec env (.transitionAgent a g.state t actor g.stateVersion) σ).2.agents.get? a
      = some (AgentRepo.transitionUpdate env.now g.state t g) := by
    rw [exec_of_lands hlands]
    exact AgentRepo.get?_transitionAgent hg _ _
  have hcleared := (h.cleared a _ hafter hidle).1
  have hlease : g.toLeaseFields = clearedLeaseFields := hcleared
  exact (hleased.agents a g hg hbusy).1 (congrArg LeaseFields.reservedBy hlease)

/-- What recovery frees is idle afterwards. -/
theorem RecoveryFrees.idle {σ : Store} {o : Op} {env : Env} {a : DocId}
    (hfrees : RecoveryFrees σ.agents o a) (hlands : env.lands o = true) :
    ∃ g, (exec env o σ).2.agents.get? a = some g ∧ g.state.busy = false := by
  rw [exec_of_lands hlands]
  cases o with
  | releaseAgent b w t actor =>
    cases actor with
    | RECOVERY =>
      obtain ⟨rfl, g, hg, hworker, hsource⟩ := hfrees
      refine ⟨AgentRepo.releaseUpdate env.now t .RECOVERY g, ?_, ?_⟩
      · exact AgentRepo.get?_releaseAgent hg _ hworker hsource
      · show t.busy = false
        revert hsource
        generalize g.state = s
        cases t <;> cases s <;> decide
    | _ => exact hfrees.elim
  | releaseExpiredAgentLease candidate now =>
    obtain ⟨rfl, ⟨g, hg, hstate, hversion⟩, g', t, hg', hlease, hlt⟩ := hfrees
    cases hg.symm.trans hg'
    exact ⟨AgentRepo.leaseReclaimUpdate now g,
      AgentRepo.get?_releaseExpiredAgentLease hg rfl hstate hversion hlease hlt, rfl⟩
  | _ => exact hfrees.elim

/-- An agent freed under a live call is claimable while he is in it, since the operation does not
touch the call. -/
theorem AgentsUnbound.not_freed {σ : Store} {o : Op} {env : Env}
    (h : AgentsUnbound (exec env o σ).2) {a : DocId} (hfrees : RecoveryFrees σ.agents o a)
    (hlands : env.lands o = true) :
    ∀ c d, σ.calls.get? c = some d → d.Live → d.agentId ≠ a := by
  intro c d hd hlive
  obtain ⟨g, hg, hidle⟩ := hfrees.idle hlands
  have hcalls : (exec env o σ).2.calls = σ.calls := by
    rw [exec_of_lands hlands]
    cases o with
    | releaseAgent | releaseExpiredAgentLease => rfl
    | _ => exact hfrees.elim
  refine h.free a g hg hidle c d ?_ hlive
  rw [hcalls]
  exact hd

/-- **An agent outside a call carries no binding** in every world reached from a store with no
reservation and no call by a run that keeps the rules: no allocator is cancelled inside `_dial`,
nobody walks out of a call, recovery frees an agent only when nobody has him in hand. And where the
property still holds after an operation, that operation was no walking out, and freed no agent of a
live call. -/
theorem agents_unbound {cfg : Config} {σ₀ : Store} {w : SystemWorld} (h₀ : σ₀.Unreserved)
    (hcleared : IdleCleared σ₀)
    (h : Reachable (system cfg) SystemRegime.orderly (World.fresh σ₀) w) :
    AgentsUnbound w.store
    ∧ ∀ o env, AgentsUnbound (exec env o w.store).2 → ¬ WalksOut w.store o env
      ∧ ∀ a, RecoveryFrees w.store.agents o a → env.lands o = true →
        ∀ c d, w.store.calls.get? c = some d → d.Live → d.agentId ≠ a := by
  obtain ⟨hfacts, hown⟩ := own_of_reachable Discipline.agentsOnly_governs h₀.calls h
  have hleased := leased_of_reachable h₀.leased h
  refine ⟨⟨idleCleared_of_reachable hcleared h, fun a g hg hidle c d hd hlive hagent => ?_⟩,
    fun o env hafter => ⟨hafter.not_walksOut hleased, fun a => hafter.not_freed⟩⟩
  -- the agent of a live call is held, so busy
  obtain ⟨g', hg', hbusy, -⟩ := hown.agent_held hfacts rfl hd (Discipline.agentsOnly_live.mpr hlive)
  rw [hagent, hg] at hg'
  cases hg'
  rw [hidle] at hbusy
  cases hbusy

/-! The theorem in the middle of a dial, and an agent who logs out of one. -/

/-- Nothing fails, nobody leaves a busy state, and recovery does nothing. -/
def Orderly (e : Entry Op Res Exn Env) : Bool :=
  e.env.fault.isNone && match e.op with
    | .transitionAgent _ s t _ _ => !s.busy || t.busy
    | .releaseAgent _ _ _ .RECOVERY | .releaseExpiredAgentLease .. => false
    | _ => true

/-- What is orderly by its look alone, without regard to the store, keeps the rules. -/
theorem SystemRegime.orderly_of_orderly {e : Entry Op Res Exn Env} (h : Orderly e = true)
    (σ : Store) (st : Nat → Stage) : SystemRegime.orderly.guard σ st e.pid e.op e.env := by
  obtain ⟨hfault, hop⟩ := Bool.and_eq_true_iff.mp h
  refine ⟨fun _ f hf => ?_, ?_, fun a hfrees _ => ?_⟩
  · rw [Env.strikes, Option.isNone_iff_eq_none.mp hfault] at hf
    cases hf
  · rintro ⟨a, s, t, actor, v, ho, -, -, hbusy, hidle⟩
    rw [ho] at hop
    simp [hbusy, hidle] at hop
  · generalize e.op = o at hop hfrees
    cases o with
    | releaseAgent b w t actor =>
      cases actor with
      | RECOVERY => cases hop
      | _ => exact hfrees.elim
    | releaseExpiredAgentLease => cases hop
    | _ => exact hfrees.elim

theorem IdleCleared.of_docs {σ : Store} (h : ∀ g ∈ σ.agents.docs,
    g.toLeaseFields = clearedLeaseFields ∧ g.currentCallId = none) : IdleCleared σ :=
  fun _ g hg _ => h g (Collection.mem_of_get? hg)

theorem demoStore_cleared : IdleCleared demoStore := .of_docs (by decide)

/-- Two workers have dialled side by side when the first call is answered and completed, and a
recovery worker finds nothing to do. -/
def hangupActions : List (Action Job Env) :=
  -- both calls are with the provider
  sideBySideActions 14
    ++ .spawn 2 (.processEvent (eventOf "e1" "ANSWERED")) :: List.replicate 8 (.perform 2 demoEnv)
    ++ .spawn 3 (.processEvent (eventOf "e2" "COMPLETED")) :: List.replicate 8 (.perform 3 demoEnv)
    ++ .spawn 4 .runSweeps :: List.replicate 8 (.perform 4 demoEnv)

def hungUp : SystemWorld := (World.fresh twoPairs).acts (system {}) hangupActions

/-- The agent of the completed call is in his wrap-up and carries nothing of it any more; the other
one is still dialling. -/
theorem agents_unbound_demo : AgentsUnbound hungUp.store
    ∧ hungUp.store.agents.docs.map Agent.state = [.WRAP_UP, .DIALING]
    ∧ hungUp.store.calls.coll.docs.map Call.state = [.COMPLETED, .INITIATED] := by
  have hunreserved : twoPairs.Unreserved := .of_docs (by decide) (by decide) fun _ => rfl
  have hcleared : IdleCleared twoPairs := .of_docs (by decide)
  have horderly : ∀ e ∈ hungUp.trace, Orderly e = true := by decide +kernel
  exact ⟨(agents_unbound hunreserved hcleared (Reachable.of_acts _ hangupActions (fun _ _ _ => trivial)
    fun e he σ st => SystemRegime.orderly_of_orderly (horderly e he) σ st)).1,
    by decide +kernel, by decide +kernel⟩

/-- The worker has reserved the agent when he logs out. -/
def logoutActions : List (Action Job Env) :=
  .spawn 0 (.allocate demoCampaign 1 "w") :: List.replicate 2 (.perform 0 demoEnv)
    ++ .spawn 1 (.agentAction demoAgent.id "logout") :: List.replicate 2 (.perform 1 demoEnv)

def loggedOut : SystemWorld := (World.fresh demoStore).acts (system {}) logoutActions

theorem offline_but_reserved : ¬ ∀ (cfg : Config) (σ₀ : Store) (w : SystemWorld), σ₀.Unreserved →
    IdleCleared σ₀ → Reachable (system cfg) SystemRegime.anything (World.fresh σ₀) w →
    AgentsUnbound w.store := by
  intro hclaim
  have hreachable : Reachable (system {}) SystemRegime.anything (World.fresh demoStore) loggedOut :=
    Reachable.of_acts _ logoutActions (fun _ _ _ => trivial) fun _ _ _ _ => trivial
  have hunbound := hclaim {} demoStore loggedOut demoStore_unreserved demoStore_cleared hreachable
  obtain ⟨g, hmem, hoffline, hworker⟩ : ∃ g ∈ loggedOut.store.agents.docs,
      g.state = .OFFLINE ∧ g.reservedBy = some "w" := by decide +kernel
  have hidle : g.state.busy = false := by
    rw [hoffline]
    rfl
  have hcleared := (hunbound.cleared _ g (Collection.get?_of_mem hmem) hidle).1
  rw [hcleared] at hworker
  cases hworker

end SmartDialer
