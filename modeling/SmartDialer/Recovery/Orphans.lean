import SmartDialer.Recovery.LiveCalls

/-!
# Recovery and the calls of dead workers

The agent sweep finds a call only through the agent who is bound to it, the borrower sweep looks
at no call at all, and the call sweep waits for a longer clock. A worker that dies between the
`INITIATED` transition and `bind_call` leaves a call that the first two sweeps pass by.

Every live call has to come off well in one of two ways, and `Settled` asks for either: the sweeps
end it, so that nobody is left in it, or they have no ground to touch its people. The calls of dead
workers fail both when a lease runs out before the call is stale.
-/

namespace SmartDialer

open DocStore Concurrent Ownership RecoveryWorker

variable {cfg : Config} {now : Time} {σ σ' : Store} {c : DocId} {d : Call}

/-- Between `σ` and `σ'` no live call has lost its agent or its borrower. -/
structure Accompanied (σ σ' : Store) : Prop where
  agents : ∀ c d g g', σ'.calls.get? c = some d → d.Live → σ.agents.get? d.agentId = some g →
    σ'.agents.get? d.agentId = some g' → g'.state = .AVAILABLE → g.state = .AVAILABLE
  borrowers : ∀ c d b b', σ'.calls.get? c = some d → d.Live →
    σ.borrowers.get? d.borrowerId = some b → σ'.borrowers.get? d.borrowerId = some b' →
    b'.status = .PENDING → b.status = .PENDING

/-- The sweeps are sure to end the call: it is stale, or its agent is taken for lost before
anything else happens to him. -/
def EndsInTime (cfg : Config) (now : Time) (σ : Store) (d : Call) : Prop :=
  CallRepo.stale (staleCutoff cfg now) d
    ∨ ∃ a g, σ.agents.get? a = some g ∧ g.currentCallId = some d.id
      ∧ (AgentRepo.leaseExpired now g
        ∨ AgentRepo.heartbeatExpired (heartbeatCutoff cfg now) g ∧ ¬ MayFreeAgent cfg now σ g)

/-- The sweeps have no ground to free the agent or the borrower of the call. -/
structure Kept (cfg : Config) (now : Time) (σ : Store) (d : Call) : Prop where
  agent : ∀ g, σ.agents.get? d.agentId = some g → ¬ MayFreeAgent cfg now σ g
  borrower : ∀ b, σ.borrowers.get? d.borrowerId = some b → ¬ MayFreeBorrower cfg now σ b

/-- Nothing fails during the sweeps, and no row is beyond their limit. -/
structure Smooth (cfg : Config) (envs : Nat → Env) (σ : Store) : Prop where
  envs : ∀ n, ∀ f ∈ (envs n).fault, f.exn.isProviderError = true
  limit : LimitSuffices cfg σ

/-- Every live call is sure to be ended, or keeps its people. -/
def Settled (cfg : Config) (envs : Nat → Env) (σ : Store) : Prop :=
  ∀ c d, σ.calls.get? c = some d → d.Live →
    Kept cfg (envs 0).now σ d ∨ Smooth cfg envs σ ∧ EndsInTime cfg (envs 0).now σ d

theorem EndsInTime.ended (h : EndsInTime cfg now σ d) (hd : σ.calls.get? d.id = some d)
    (hcovered : Covered cfg now σ σ') : CallEnded d.id σ' := by
  rcases h with hstale | ⟨a, g, hg, hbound, hlost⟩
  · exact hcovered.staleCall d hd hstale
  · obtain rfl : g.id = a := Collection.key_of_get? hg
    rcases hlost with hexpired | ⟨hsilent, hkept⟩
    · exact hcovered.boundCall g d.id hg hexpired hbound
    · exact hcovered.silentAgent g d.id hg hsilent hkept hbound

/-- A call that is open after the sweeps was open before them, and unchanged. -/
theorem open_before (hswept : Swept cfg now σ σ') (hd : σ'.calls.get? c = some d)
    (hopen : d.terminal = false) : σ.calls.get? c = some d := by
  obtain ⟨d₀, hd₀, hfate⟩ := rel_right (hswept.calls c) hd
  obtain rfl := hfate.eq_of_open hopen
  exact hd₀

theorem Kept.agent_eq (h : Kept cfg now σ d) (hswept : Swept cfg now σ σ') {g g' : Agent}
    (hg : σ.agents.get? d.agentId = some g) (hg' : σ'.agents.get? d.agentId = some g') :
    g' = g ∨ g'.state = .OFFLINE := by
  obtain ⟨g'', hg'', hfate⟩ := rel_left (hswept.agents _) hg
  cases hg'.symm.trans hg''
  rcases hfate.fate with heq | ⟨hoff, -⟩ | ⟨-, hfree⟩
  · exact Or.inl heq
  · exact Or.inr hoff
  · exact absurd hfree (h.agent g hg)

theorem Kept.borrower_eq (h : Kept cfg now σ d) (hswept : Swept cfg now σ σ') {b : Borrower}
    (hb : σ.borrowers.get? d.borrowerId = some b) :
    σ'.borrowers.get? d.borrowerId = some b := by
  obtain ⟨b', hb', hfate⟩ := rel_left (hswept.borrowers _) hb
  rcases hfate.freed with rfl | ⟨-, hfree⟩
  · exact hb'
  · exact absurd hfree (h.borrower b hb)

/-- The live calls that the sweeps have left are those that keep their people. -/
theorem Settled.kept {envs : Nat → Env} (h : Settled cfg envs σ) (hsound : CallsSound σ.calls)
    (hd : (afterSweeps cfg envs σ).calls.get? c = some d) (hlive : d.Live) :
    σ.calls.get? c = some d ∧ Kept cfg (envs 0).now σ d := by
  have hbefore := open_before (swept_afterSweeps cfg envs σ) hd hlive.1
  refine ⟨hbefore, ?_⟩
  rcases h c d hbefore hlive with hkept | ⟨hsmooth, hends⟩
  · exact hkept
  · obtain rfl := Calls.id_of_get? hbefore
    have hended := hends.ended hbefore
      (covered_afterSweeps hsound hsmooth.limit hsmooth.envs) d hd
    rw [hlive.1] at hended
    cases hended

/-! ## Reservations before the sweeps

That no borrower is in two unfinished calls is ownership of borrowers alone, and so it holds of runs
in which agents come and go as they like. Only recovery and cancelled dials are left out. -/

/-- No recovery yet, and no cancelled task; agents may leave whenever they like. -/
def SystemRegime.beforeRecovery : SystemRegime where
  admits := fun job => job ≠ .runSweeps
  guard := fun _ _ _ o env => ∀ f, env.strikes o = some f → f.exn ≠ .cancelled

/-- Only borrowers are followed, and a call holds its borrower from its insertion on. -/
def Discipline.borrowersOnly : Discipline where
  agents := false
  borrowers := true
  queuedHolds := true
  recovery := false
  follows := Or.inr rfl
  recovery_agents := without_recovery true true

theorem Discipline.borrowersOnly_governs :
    Discipline.borrowersOnly.Governs SystemRegime.beforeRecovery where
  jobs := fun h => absurd rfl h
  ops := fun _ _ _ hguard => ⟨fun _ => hguard, fun _ _ _ _ _ _ hagents => (nomatch hagents),
    fun _ _ hrec => (nomatch hrec)⟩

/-! ## What follows when no live call has lost anybody

The converse is read off the coverage of a pass: whose lease was over is free afterwards, and if he
belongs to a live call that call has lost him. -/

section Converse

variable {envs : Nat → Env} (hswept : Swept cfg now σ σ') (hcovered : Covered cfg now σ σ')
  (haccompanied : Accompanied σ σ') (hd : σ.calls.get? c = some d) (hlive : d.Live)
  (hend : ¬ MayEnd cfg now σ d)

include hswept hcovered haccompanied hd hlive hend

/-- A call that is not to be ended has an agent whose lease is in time, if he is heard at all. -/
theorem Accompanied.agent_in_time {g : Agent} (hg : σ.agents.get? d.agentId = some g)
    (hbeats : ¬ Silent cfg now g) : ¬ AgentRepo.leaseExpired now g := by
  -- he would be available now, and was not before
  intro hexpired
  have hid : g.id = d.agentId := Collection.key_of_get? hg
  obtain ⟨d', hd', hcall⟩ := rel_left (hswept.calls c) hd
  have hsame : d' = d := hcall.resolve_right fun hended => hend hended.2.1
  subst hsame
  obtain ⟨g', hg', hfate⟩ := rel_left (hswept.agents _) hg
  have hsource := hexpired.1
  have havailable : g'.state = .AVAILABLE := by
    rcases hcovered.expiredAgent g (hid ▸ hg) hexpired g' (hid ▸ hg') with h | hoff
    · exact h
    · rcases hfate.fate with rfl | ⟨-, hsilent⟩ | ⟨h, -⟩
      · rw [hoff] at hsource
        exact absurd hsource (by decide)
      · exact absurd hsilent hbeats
      · exact h
  rw [haccompanied.agents c d' g g' hd' hlive hg hg' havailable] at hsource
  exact absurd hsource (by decide)

/-- A call that is not to be ended has a borrower whose lease is in time. -/
theorem Accompanied.borrower_in_time
    (hunique : ∀ e, σ.calls.get? e.id = some e → e.terminal = false →
      e.borrowerId = d.borrowerId → e = d)
    {b : Borrower} (hb : σ.borrowers.get? d.borrowerId = some b) :
    ¬ BorrowerRepo.leaseExpired now b := by
  -- he would be pending now, or let go with a call of his, and this is the only one
  intro hexpired
  have hid : b.id = d.borrowerId := Collection.key_of_get? hb
  obtain ⟨d', hd', hcall⟩ := rel_left (hswept.calls c) hd
  have hsame : d' = d := hcall.resolve_right fun hended => hend hended.2.1
  subst hsame
  obtain ⟨b', hb', hfate⟩ := rel_left (hswept.borrowers _) hb
  have hfree := hcovered.expiredBorrower b (hid ▸ hb) hexpired b' (hid ▸ hb')
  have hheld : b.status.held = true := decide_eq_true hexpired.1
  rcases hfate with rfl | ⟨hpending, -⟩ | ⟨-, -, e, f, hf, hmay, hborrower, -⟩
  · rw [hfree] at hheld
    cases hheld
  · rw [haccompanied.borrowers c d' b b' hd' hlive hb hb' hpending] at hheld
    cases hheld
  · -- no other unfinished call has this borrower
    obtain rfl := Calls.id_of_get? hf
    obtain rfl := hunique f hf hmay.1 (hborrower.trans hid)
    exact hend hmay

end Converse

/-- **When recovery parts no live call from its people**: in every world that is reached before
any recovery, with workers that die and agents who leave, if every live call is sure to be ended
or keeps its people, then afterwards no live call has lost its agent or its borrower, the
borrower is still reserved for it, and no borrower is in two unfinished calls. Conversely, where
nothing fails, a live call that is not to be ended must have its leases in time. -/
theorem live_calls_accompanied {σ₀ : Store} {w : SystemWorld}
    (hcalls : ∀ c, σ₀.calls.get? c = none)
    (h : Reachable (system cfg) SystemRegime.beforeRecovery (World.fresh σ₀) w)
    (envs : Nat → Env) :
    (Settled cfg envs w.store → Accompanied w.store (afterSweeps cfg envs w.store)
      ∧ (∀ c d, (afterSweeps cfg envs w.store).calls.get? c = some d → d.Live →
        ∃ b, (afterSweeps cfg envs w.store).borrowers.get? d.borrowerId = some b
          ∧ b.status = .RESERVED ∧ b.reservedBy = some d.createdByWorker)
      ∧ ∀ c c' d d', (afterSweeps cfg envs w.store).calls.get? c = some d →
        (afterSweeps cfg envs w.store).calls.get? c' = some d' → d.terminal = false →
        d'.terminal = false → d.borrowerId = d'.borrowerId → c = c')
    ∧ (Smooth cfg envs w.store → Accompanied w.store (afterSweeps cfg envs w.store) →
      ∀ c d, w.store.calls.get? c = some d → d.Live → ¬ MayEnd cfg (envs 0).now w.store d →
        (∀ g, w.store.agents.get? d.agentId = some g → ¬ Silent cfg (envs 0).now g →
          ¬ AgentRepo.leaseExpired (envs 0).now g)
        ∧ ∀ b, w.store.borrowers.get? d.borrowerId = some b →
          ¬ BorrowerRepo.leaseExpired (envs 0).now b) := by
  obtain ⟨hfacts, hown⟩ := own_of_reachable Discipline.borrowersOnly_governs hcalls h
  have hswept := swept_afterSweeps cfg envs w.store
  -- borrowers are held exclusively, even where agents walk away from their calls
  have hunique : ∀ c c' d d', w.store.calls.get? c = some d → w.store.calls.get? c' = some d' →
      d.terminal = false → d'.terminal = false → d.borrowerId = d'.borrowerId → c = c' := by
    intro c c' d d' hd hd' hopen hopen' hsame
    refine hown.live_unique hfacts hd ⟨hopen, nofun⟩ hd' ⟨hopen', nofun⟩
      (x := .borrower d.borrowerId) ?_ ?_ rfl
    · simp [Call.holdings]
    · simp [Call.holdings, hsame]
  refine ⟨fun hsettled => ⟨⟨?_, ?_⟩, ?_, ?_⟩, fun hsmooth haccompanied c d hd hlive hend => ?_⟩
  · intro c d g g' hd hlive hg hg' havailable
    rcases (hsettled.kept hfacts.sound hd hlive).2.agent_eq hswept hg hg' with rfl | hoff
    · exact havailable
    · rw [havailable] at hoff
      cases hoff
  · intro c d b b' hd hlive hb hb' hpending
    have heq := (hsettled.kept hfacts.sound hd hlive).2.borrower_eq hswept hb
    cases hb'.symm.trans heq
    exact hpending
  · intro c d hd hlive
    obtain ⟨hbefore, hkept⟩ := hsettled.kept hfacts.sound hd hlive
    obtain ⟨b, hb, hreserved, hworker⟩ :=
      hown.borrower_held hfacts rfl hbefore ⟨hlive.1, nofun⟩
    exact ⟨b, hkept.borrower_eq hswept hb, hreserved, hworker _ rfl⟩
  · intro c c' d d' hd hd' hopen hopen' hsame
    exact hunique c c' d d' (open_before hswept hd hopen) (open_before hswept hd' hopen')
      hopen hopen' hsame
  -- the converse: what accompanies a call through the sweeps was in time
  · have hcovered := covered_afterSweeps hfacts.sound hsmooth.limit hsmooth.envs
    refine ⟨fun g hg hbeats =>
      haccompanied.agent_in_time hswept hcovered hd hlive hend hg hbeats, fun b hb =>
      haccompanied.borrower_in_time hswept hcovered hd hlive hend (fun e he hopen hsame => ?_) hb⟩
    have hid : e.id = c := hunique e.id c e d he hd hopen hlive.1 hsame
    rw [hid, hd] at he
    exact (Option.some.inj he).symm

/-! ## A worker that dies before `bind_call`

The call is `INITIATED` and no agent is bound to it, so until it is stale no sweep knows of it. -/

/-- The worker has moved the call to `INITIATED` and dies there. -/
def orphanedActions : List (Action Job Env) :=
  .spawn 0 (.allocate demoCampaign 1 "w") :: List.replicate 7 (.perform 0 demoEnv) ++ [.crash 0]

/-- The world after the crash. -/
def orphaned : SystemWorld := (World.fresh demoStore).acts (system {}) orphanedActions

theorem orphaned_reachable :
    Reachable (system {}) SystemRegime.beforeRecovery (World.fresh demoStore) orphaned := by
  have hquiet : ∀ e ∈ orphaned.trace, e.env.fault.isNone = true := by decide +kernel
  refine Reachable.of_acts _ orphanedActions (fun p job hjob hsweeps => ?_) fun e he σ st f hf => ?_
  · simp [orphanedActions, hsweeps] at hjob
  · rw [Env.strikes, Option.isNone_iff_eq_none.mp (hquiet e he)] at hf
    cases hf

/-- After the stale timeout the call is ended together with the reservations. -/
def at130 (_ : Nat) : Env := { now := 130000 }

theorem live_calls_accompanied_demo :
    Accompanied orphaned.store (afterSweeps {} at130 orphaned.store) := by
  have hsmooth : Smooth {} at130 orphaned.store :=
    ⟨fun _ _ hf => (nomatch hf), by constructor <;> decide +kernel⟩
  have hstale : ∀ d ∈ orphaned.store.calls.coll.docs, CallRepo.stale (staleCutoff {} 130000) d := by
    decide +kernel
  exact ((live_calls_accompanied (fun _ => rfl) orphaned_reachable at130).1 fun c d hd _ =>
    Or.inr ⟨hsmooth, Or.inl (hstale d (Collection.mem_of_get? hd))⟩).1

/-- Thirty-one seconds later the agent can be claimed again and the borrower is pending, while
the call is still `INITIATED`. -/
def at31 (_ : Nat) : Env := { now := 31000 }

theorem orphan_left_alone : ¬ ∀ (cfg : Config) (σ₀ : Store) (w : SystemWorld) (envs : Nat → Env),
    (∀ c, σ₀.calls.get? c = none) →
    Reachable (system cfg) SystemRegime.beforeRecovery (World.fresh σ₀) w →
    (∀ n, (envs n).fault = none) → Accompanied w.store (afterSweeps cfg envs w.store) := by
  intro hclaim
  have haccompanied := hclaim {} demoStore orphaned at31 (fun _ => rfl) orphaned_reachable
    fun _ => rfl
  have hcall : ∃ d ∈ (afterSweeps {} at31 orphaned.store).calls.coll.docs,
      (d.terminal = false ∧ d.state ≠ .QUEUED) ∧ d.agentId = demoAgent.id := by decide +kernel
  have hbefore : ∀ g ∈ orphaned.store.agents.docs, g.state = .RESERVED := by decide +kernel
  have hafter : ∀ g ∈ (afterSweeps {} at31 orphaned.store).agents.docs, g.state = .AVAILABLE := by
    decide +kernel
  obtain ⟨d, hmem, hlive, hagent⟩ := hcall
  have hd := Collection.get?_of_mem hmem
  obtain ⟨g, hg⟩ : ∃ g, orphaned.store.agents.get? d.agentId = some g := by
    rw [hagent]
    exact Option.isSome_iff_exists.mp (by decide +kernel)
  obtain ⟨g', hg'⟩ : ∃ g, (afterSweeps {} at31 orphaned.store).agents.get? d.agentId = some g := by
    rw [hagent]
    exact Option.isSome_iff_exists.mp (by decide +kernel)
  have havailable := haccompanied.agents _ d g g' hd hlive hg hg' (hafter g' (Collection.mem_of_get? hg'))
  rw [hbefore g (Collection.mem_of_get? hg)] at havailable
  cases havailable

end SmartDialer
