import SmartDialer.Recovery.Drain

/-!
# Recovery and the conversation on the line

Nothing renews a lease after the reservation, and nothing touches a call between two provider
events, so a conversation that lasts looks to the sweeps like one that its worker has left
behind. `InTime` are the three clocks that decide its fate.

Two conditions are compared. `Undisturbed` says of the store before the pass that no sweep has the
call, its agent or its borrower in reach, and it suffices whatever fails. `InTime` names the clocks
alone; among people whom nobody else is bound to the two agree, and where nothing fails a clock that
has run out is dealt with.
-/

namespace SmartDialer

open DocStore Concurrent RecoveryWorker

variable {cfg : Config} {now : Time} {σ σ' : Store} {d : Call} {g : Agent} {b : Borrower}

/-- Two people are talking, and the agent's client is alive. -/
structure LiveCall (cfg : Config) (now : Time) (σ : Store) (d : Call) (g : Agent) (b : Borrower) :
    Prop where
  call : σ.calls.get? d.id = some d
  talking : d.state = .ANSWERED ∨ d.state = .CONNECTED
  agent : σ.agents.get? d.agentId = some g
  connected : g.state = .CONNECTED
  bound : g.currentCallId = some d.id
  beating : ∃ t ∈ g.lastHeartbeatAt, heartbeatCutoff cfg now ≤ t
  borrower : σ.borrowers.get? d.borrowerId = some b

/-- They are still talking, and the borrower has not been put back. -/
structure Spared (σ : Store) (d : Call) (b : Borrower) : Prop where
  call : ∃ d', σ.calls.get? d.id = some d' ∧ d'.terminal = false
  agent : ∃ g, σ.agents.get? d.agentId = some g ∧ g.state = .CONNECTED
    ∧ g.currentCallId = some d.id
  borrower : ∀ b', σ.borrowers.get? d.borrowerId = some b' → b'.status = .PENDING →
    b.status = .PENDING

/-- The sweeps have no ground to touch the call, its agent or its borrower. -/
structure Undisturbed (cfg : Config) (now : Time) (σ : Store) (d : Call) (g : Agent)
    (b : Borrower) : Prop where
  call : ¬ MayEnd cfg now σ d
  agent : ¬ MayFreeAgent cfg now σ g
  borrower : ¬ MayFreeBorrower cfg now σ b

/-- No lease is over and the call is not stale. -/
structure InTime (cfg : Config) (now : Time) (d : Call) (g : Agent) (b : Borrower) : Prop where
  call : staleCutoff cfg now ≤ d.updatedAt
  agent : ¬ AgentRepo.leaseExpired now g
  borrower : ¬ BorrowerRepo.leaseExpired now b

/-- No other unfinished call is about the agent or the borrower, and no other agent is bound to
this one. -/
structure Alone (σ : Store) (d : Call) : Prop where
  calls : ∀ c e, σ.calls.get? c = some e → e.terminal = false →
    e.agentId = d.agentId ∨ e.borrowerId = d.borrowerId → e = d
  agents : ∀ a h, σ.agents.get? a = some h → h.currentCallId = some d.id → a = d.agentId

namespace LiveCall

theorem not_silent (h : LiveCall cfg now σ d g b) : ¬ Silent cfg now g := by
  rintro ⟨t, ht, hlt⟩
  obtain ⟨t', ht', hle⟩ := h.beating
  have heq : t = t' := Option.some.inj (ht.symm.trans ht')
  subst heq
  exact absurd hlt (Int.not_lt.mpr hle)

theorem isTerminal_eq (h : LiveCall cfg now σ d g b) : CallSm.isTerminal d.state = false := by
  rcases h.talking with hstate | hstate <;> rw [hstate] <;> rfl

/-- What the sweeps have no ground to touch, they leave as it is. -/
theorem untouched (h : LiveCall cfg now σ d g b) (hundisturbed : Undisturbed cfg now σ d g b)
    (hswept : Swept cfg now σ σ') :
    σ'.calls.get? d.id = some d ∧ σ'.agents.get? d.agentId = some g
      ∧ σ'.borrowers.get? d.borrowerId = some b := by
  refine ⟨?_, ?_, ?_⟩
  · obtain ⟨d', hd', rfl | ⟨-, hend, -⟩⟩ := rel_left (hswept.calls _) h.call
    · exact hd'
    · exact absurd hend hundisturbed.call
  · obtain ⟨g', hg', hfate⟩ := rel_left (hswept.agents _) h.agent
    rcases hfate.fate with rfl | ⟨-, hsilent⟩ | ⟨-, hfree⟩
    · exact hg'
    · exact absurd hsilent h.not_silent
    · exact absurd hfree hundisturbed.agent
  · obtain ⟨b', hb', hfate⟩ := rel_left (hswept.borrowers _) h.borrower
    rcases hfate.freed with rfl | ⟨-, hfree⟩
    · exact hb'
    · exact absurd hfree hundisturbed.borrower

/-- With nobody else involved, the three clocks decide: every ground that a sweep could have leads
back to one of them. -/
theorem undisturbed (h : LiveCall cfg now σ d g b) (halone : Alone σ d)
    (hintime : InTime cfg now d g b) : Undisturbed cfg now σ d g b := by
  have hcall : ¬ MayEnd cfg now σ d := by
    rintro ⟨-, hstale | ⟨a, g', hg', hbound, hlost⟩⟩
    · exact absurd hstale (Int.not_lt.mpr hintime.call)
    · obtain rfl := halone.agents a g' hg' hbound
      cases hg'.symm.trans h.agent
      rcases hlost with hexpired | ⟨-, hsilent⟩
      · exact hintime.agent hexpired
      · exact h.not_silent hsilent
  -- an agent is freed for his lease, his wrap-up or a stale call, a borrower for his lease or a
  -- call that may be ended
  refine ⟨hcall, ?_, ?_⟩
  · rintro (hexpired | ⟨hwrap, -⟩ | ⟨-, c, e, he, hstale, hagent, -⟩)
    · exact hintime.agent hexpired
    · rw [h.connected] at hwrap
      cases hwrap
    · have hid : e.agentId = d.agentId := hagent.trans (Collection.key_of_get? h.agent)
      obtain rfl := halone.calls c e he hstale.1 (Or.inl hid)
      exact hcall ⟨hstale.1, Or.inl hstale.2⟩
  · rintro (hexpired | ⟨-, c, e, he, hend, hborrower, -⟩)
    · exact hintime.borrower hexpired
    · have hid : e.borrowerId = d.borrowerId :=
        hborrower.trans (Collection.key_of_get? h.borrower)
      obtain rfl := halone.calls c e he hend.1 (Or.inr hid)
      exact hcall hend

/-- A clock that has run out ends the conversation or gives the borrower away, by the coverage of a
pass. -/
theorem inTime (h : LiveCall cfg now σ d g b) (hsound : d.Sound) (halone : Alone σ d)
    (hswept : Swept cfg now σ σ') (hcovered : Covered cfg now σ σ') (hspared : Spared σ' d b) :
    InTime cfg now d g b := by
  have hopen : d.terminal = false := hsound.terminal.trans h.isTerminal_eq
  -- anything overdue the pass would have reached
  have hstale : staleCutoff cfg now ≤ d.updatedAt := by
    by_contra hlt
    obtain ⟨d', hd', hopen'⟩ := hspared.call
    have hended := hcovered.staleCall d h.call ⟨hopen, Int.not_le.mp hlt⟩ d' hd'
    rw [hopen'] at hended
    cases hended
  have hagent : ¬ AgentRepo.leaseExpired now g := by
    intro hexpired
    obtain ⟨g', hg', hconnected, -⟩ := hspared.agent
    have hid : g.id = d.agentId := Collection.key_of_get? h.agent
    have hidle := hcovered.expiredAgent g (hid ▸ h.agent) hexpired g' (hid ▸ hg')
    rw [hconnected] at hidle
    rcases hidle with hidle | hidle <;> cases hidle
  refine ⟨hstale, hagent, fun hexpired => ?_⟩
  have hid : b.id = d.borrowerId := Collection.key_of_get? h.borrower
  obtain ⟨b', hb', hfate⟩ := rel_left (hswept.borrowers _) h.borrower
  have hfree := hcovered.expiredBorrower b (hid ▸ h.borrower) hexpired b' (hid ▸ hb')
  have hheld : b.status.held = true := decide_eq_true hexpired.1
  rcases hfate with rfl | ⟨hpending, -⟩ | ⟨-, -, c, e, he, hend, hborrower, -⟩
  · rw [hfree] at hheld
    cases hheld
  · rw [hspared.borrower b' hb' hpending] at hheld
    cases hheld
  · -- only this call could have taken the borrower along, and it has not been ended
    obtain rfl := halone.calls c e he hend.1 (Or.inr (hborrower.trans hid))
    obtain ⟨-, hlt | ⟨a, g', hg', hbound, hlost⟩⟩ := hend
    · exact absurd hlt (Int.not_lt.mpr hstale)
    · obtain rfl := halone.agents a g' hg' hbound
      cases hg'.symm.trans h.agent
      rcases hlost with hlost | ⟨-, hsilent⟩
      · exact hagent hlost
      · exact h.not_silent hsilent

theorem spared (h : LiveCall cfg now σ d g b) (hsound : d.Sound)
    (hundisturbed : Undisturbed cfg now σ d g b) (hswept : Swept cfg now σ σ') :
    Spared σ' d b := by
  obtain ⟨hd, hg, hb⟩ := h.untouched hundisturbed hswept
  refine ⟨⟨d, hd, hsound.terminal.trans h.isTerminal_eq⟩, ⟨g, hg, h.connected, h.bound⟩, ?_⟩
  intro b' hb' hpending
  cases hb.symm.trans hb'
  exact hpending

end LiveCall

/-- **When recovery spares a live conversation**: always when it has no ground to touch call,
agent or borrower, whatever fails; and when nobody else is involved and nothing fails, exactly
when the call is not stale and neither lease is over. -/
theorem live_call_spared {σ₀ : Store} {w : SystemWorld} (h₀ : σ₀.Unreserved)
    (h : Reachable (system cfg) SystemRegime.anything (World.fresh σ₀) w) {envs : Nat → Env}
    (hlive : LiveCall cfg (envs 0).now w.store d g b) :
    (Undisturbed cfg (envs 0).now w.store d g b → Spared (afterSweeps cfg envs w.store) d b)
    ∧ (Alone w.store d → LimitSuffices cfg w.store →
      (∀ n, ∀ f ∈ (envs n).fault, f.exn.isProviderError = true) →
      (Spared (afterSweeps cfg envs w.store) d b ↔ InTime cfg (envs 0).now d g b)) := by
  have hcalls : CallsSound w.store.calls := (callFacts_of_reachable h₀.sound h).sound
  have hsound : d.Sound := hcalls _ d hlive.call
  have hswept := swept_afterSweeps cfg envs w.store
  refine ⟨fun hundisturbed => hlive.spared hsound hundisturbed hswept,
    fun halone hlimit henvs => ⟨fun hspared => ?_, fun hintime => ?_⟩⟩
  · exact hlive.inTime hsound halone hswept (covered_afterSweeps hcalls hlimit henvs) hspared
  · exact hlive.spared hsound (hlive.undisturbed halone hintime) hswept

/-! A conversation: the provider reports the call answered, and after fifteen seconds the agent's
client sends its heartbeat. -/

/-- The provider reports that the borrower has picked up. -/
def answeredEvent : ProviderEvent := { demoEvent with eventType := "ANSWERED" }

/-- The dial, the event, and a heartbeat of the agent. -/
def talkingActions : List (Action Job Env) :=
  attachedActions ++ .spawn 1 (.processEvent answeredEvent) :: List.replicate 10 (.perform 1 demoEnv)
    ++ .spawn 2 (.agentAction demoAgent.id "heartbeat")
      :: List.replicate 5 (.perform 2 { now := 15000 })

/-- The conversation is under way. -/
def talking : SystemWorld := (World.fresh demoStore).acts (system {}) talkingActions

/-- The call as it is stored then. -/
def talkingCall : Call :=
  { demoCall with state := .ANSWERED, stateRank := 4, answeredAt := some 0 }

/-- The agent as he is stored then. -/
def talkingAgent : Agent :=
  { demoAgent with
    toLeaseFields := demoLease
    state := .CONNECTED
    stateVersion := 3
    currentCallId := some talkingCall.id
    lastHeartbeatAt := some 15000 }

theorem talking_reachable :
    Reachable (system {}) SystemRegime.anything (World.fresh demoStore) talking :=
  Reachable.of_acts _ talkingActions (fun _ _ _ => trivial) fun _ _ _ _ => trivial

theorem talking_live {now : Time} (h : heartbeatCutoff {} now ≤ 15000) :
    LiveCall {} now talking.store talkingCall talkingAgent heldBorrower where
  call := by decide +kernel
  talking := Or.inl rfl
  agent := by decide +kernel
  connected := rfl
  bound := rfl
  beating := ⟨15000, rfl, h⟩
  borrower := by decide +kernel

theorem talking_alone : Alone talking.store talkingCall where
  calls := fun c e he _ _ =>
    (show ∀ e ∈ talking.store.calls.coll.docs, e = talkingCall by decide +kernel) e
      (Collection.mem_of_get? he)
  agents := fun a g hg _ => by
    have hid : g.id = talkingCall.agentId :=
      (show ∀ g ∈ talking.store.agents.docs, g.id = talkingCall.agentId by decide +kernel) g
        (Collection.mem_of_get? hg)
    rw [← hid]
    exact (Collection.key_of_get? hg).symm

/-- Before the lease is over. -/
def at20 (_ : Nat) : Env := { now := 20000 }

theorem live_call_spared_demo :
    Spared (afterSweeps {} at20 talking.store) talkingCall heldBorrower := by
  have hlive : LiveCall {} (at20 0).now talking.store talkingCall talkingAgent heldBorrower :=
    talking_live (by decide)
  have hlimit : LimitSuffices {} talking.store := by constructor <;> decide +kernel
  have hintime : InTime {} 20000 talkingCall talkingAgent heldBorrower := by
    constructor <;> decide
  exact ((live_call_spared demoStore_unreserved talking_reachable hlive).2 talking_alone hlimit
    fun _ _ hf => nomatch hf).mpr hintime

/-- After the lease is over. -/
def at41 (_ : Nat) : Env := { now := 41000 }

/-- Forty-one seconds into the conversation recovery cancels it: the lease of thirty seconds has
run out while the agent's client is alive and the provider would answer `ACTIVE`. -/
theorem live_call_cancelled : ¬ ∀ (cfg : Config) (σ₀ : Store) (w : SystemWorld) (envs : Nat → Env)
    (d : Call) (g : Agent) (b : Borrower), σ₀.Unreserved →
    Reachable (system cfg) SystemRegime.anything (World.fresh σ₀) w →
    (∀ n, (envs n).fault = none ∧ (envs n).callStatus = .ACTIVE) →
    LiveCall cfg (envs 0).now w.store d g b → Spared (afterSweeps cfg envs w.store) d b := by
  intro hclaim
  obtain ⟨d, hd, hopen⟩ := (hclaim {} demoStore talking at41 talkingCall talkingAgent
    heldBorrower demoStore_unreserved talking_reachable (fun _ => ⟨rfl, rfl⟩)
    (talking_live (by decide))).call
  have hended : ∀ d ∈ (afterSweeps {} at41 talking.store).calls.coll.docs, d.terminal = true := by
    decide +kernel
  rw [hended d (Collection.mem_of_get? hd)] at hopen
  cases hopen

end SmartDialer
