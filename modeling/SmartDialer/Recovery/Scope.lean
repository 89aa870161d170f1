import SmartDialer.Calls.Evolution
import SmartDialer.System.Effects

/-!
# What a run of the sweeps may touch

The sweeps find their rows by queries on the store as it is when each of them begins. Everything
they may end, free or log out can be told from the store before the first of them: that is
`MayEnd`, `MayFreeAgent`, `MayFreeBorrower` and `Silent`. `Swept σ₀ σ` says that between `σ₀` and
`σ` nothing else has happened, and `Swept.op` that an operation of the sweeps keeps it so.

The point is that nobody becomes due by being swept: an agent who has been freed has no lease any
more, a call that has been ended is not stale. So the rows in reach do not grow while a pass runs,
and the store at its beginning says what they are.
-/

namespace SmartDialer

open DocStore Concurrent

namespace RecoveryWorker

variable (cfg : Config) (now : Time)

/-! ## The three cutoffs

The sweeps read the clock once and subtract from it. -/

/-- Calls that have not moved since are stale. -/
def staleCutoff : Time := now - seconds cfg.settings.CALL_STALE_TIMEOUT_SECONDS

/-- Agents who have not been heard since are silent. -/
def heartbeatCutoff : Time := now - seconds cfg.settings.AGENT_HEARTBEAT_TIMEOUT_SECONDS

/-- Wrap-ups that began by then are stuck: three times the time that the settings give. -/
def wrapUpCutoff : Time :=
  now - seconds (cfg.settings.WRAP_UP_SECONDS + cfg.settings.WRAP_UP_SECONDS * 2)

/-! ## The rows in reach of the sweeps at `now`

For each kind of row, what the five queries can select directly and what they reach through it: an
agent leads to the call he is bound to, a call to its agent and its borrower. -/

/-- An unfinished call that is stale, or that is bound to an agent taken for lost. -/
def MayEnd (σ : Store) (d : Call) : Prop :=
  d.terminal = false ∧ (d.updatedAt < staleCutoff cfg now
    ∨ ∃ a g, σ.agents.get? a = some g ∧ g.currentCallId = some d.id
      ∧ (AgentRepo.leaseExpired now g ∨ AgentRepo.heartbeatExpired (heartbeatCutoff cfg now) g))

/-- The agent has a heartbeat, and it is too old. -/
def Silent (g : Agent) : Prop := ∃ t ∈ g.lastHeartbeatAt, t < heartbeatCutoff cfg now

/-- An agent whose lease or wrap-up time is over, or who is held by the worker of a stale call
that names him. -/
def MayFreeAgent (σ : Store) (g : Agent) : Prop :=
  AgentRepo.leaseExpired now g ∨ AgentRepo.wrapUpExpired (wrapUpCutoff cfg now) none g
    ∨ g.state ∈ AgentSm.allowedSources .AVAILABLE .RECOVERY
      ∧ ∃ c d, σ.calls.get? c = some d ∧ CallRepo.stale (staleCutoff cfg now) d
        ∧ d.agentId = g.id ∧ g.reservedBy = some d.createdByWorker

/-- A borrower held by the worker of a call that may be ended. -/
def HeldByEnded (σ : Store) (b : Borrower) : Prop :=
  b.status.held = true ∧ ∃ c d, σ.calls.get? c = some d ∧ MayEnd cfg now σ d
    ∧ d.borrowerId = b.id ∧ b.reservedBy = some d.createdByWorker

/-- A borrower whose lease is over, or whose call may be ended. -/
def MayFreeBorrower (σ : Store) (b : Borrower) : Prop :=
  BorrowerRepo.leaseExpired now b ∨ HeldByEnded cfg now σ b

/-! ## Before and after

What can have become of a row: nothing, or what a sweep that had it in reach would have made of it. -/

/-- An agent under the sweeps: untouched, logged out, or freed. -/
structure AgentSwept (σ₀ : Store) (g₀ g : Agent) : Prop where
  heartbeat : g.lastHeartbeatAt = g₀.lastHeartbeatAt
  bound : g.currentCallId = none ∨ g.currentCallId = g₀.currentCallId
  fate : g = g₀ ∨ g.state = .OFFLINE ∧ Silent cfg now g₀
    ∨ g.state = .AVAILABLE ∧ MayFreeAgent cfg now σ₀ g₀

/-- A borrower under the sweeps: untouched, reclaimed, or let go with a call. -/
def BorrowerSwept (σ₀ : Store) (b₀ b : Borrower) : Prop :=
  b = b₀ ∨ b.status = .PENDING ∧ BorrowerRepo.leaseExpired now b₀
    ∨ b.status.held = false ∧ HeldByEnded cfg now σ₀ b₀

/-- A call under the sweeps: untouched, or ended. -/
def CallSwept (σ₀ : Store) (d₀ d : Call) : Prop :=
  d = d₀ ∨ d.terminal = true ∧ MayEnd cfg now σ₀ d₀ ∧ d₀.Evolves d

/-- Between `σ₀` and `σ` nothing has happened but what the sweeps may do. -/
structure Swept (σ₀ σ : Store) : Prop where
  agents : ∀ a, Option.Rel (AgentSwept cfg now σ₀) (σ₀.agents.get? a) (σ.agents.get? a)
  borrowers : ∀ b,
    Option.Rel (BorrowerSwept cfg now σ₀) (σ₀.borrowers.get? b) (σ.borrowers.get? b)
  calls : ∀ c, Option.Rel (CallSwept cfg now σ₀) (σ₀.calls.get? c) (σ.calls.get? c)

variable {cfg now} {σ₀ σ : Store}

/-- What an agent with an expired lease is bound to may be ended. -/
theorem mayEnd_of_leaseExpired {g : Agent} (hexpired : AgentRepo.leaseExpired now g)
    (hg : σ₀.agents.get? g.id = some g) :
    ∀ c ∈ g.currentCallId, ∀ d, σ₀.calls.get? c = some d → d.terminal = false →
      MayEnd cfg now σ₀ d := by
  intro c hc d hd hopen
  refine ⟨hopen, Or.inr ⟨g.id, g, hg, ?_, Or.inl hexpired⟩⟩
  rw [Option.mem_def.mp hc, Calls.id_of_get? hd]

theorem MayFreeAgent.ne_offline {g : Agent} (h : MayFreeAgent cfg now σ₀ g) :
    g.state ≠ .OFFLINE := by
  intro hoff
  rcases h with ⟨hsource, -⟩ | ⟨hwrap, -⟩ | ⟨hsource, -⟩
  · rw [hoff] at hsource
    exact absurd hsource (by decide)
  · rw [hoff] at hwrap
    cases hwrap
  · rw [hoff] at hsource
    exact absurd hsource (by decide)

theorem AgentSwept.refl (g : Agent) : AgentSwept cfg now σ₀ g g := ⟨rfl, Or.inr rfl, Or.inl rfl⟩

theorem Swept.refl (σ : Store) : Swept cfg now σ σ where
  agents := fun _ => rel_refl AgentSwept.refl _
  borrowers := fun _ => rel_refl (R := BorrowerSwept cfg now σ) (fun _ => Or.inl rfl) _
  calls := fun _ => rel_refl (R := CallSwept cfg now σ) (fun _ => Or.inl rfl) _

/-- An agent that recovery could still free has not been touched. -/
theorem AgentSwept.eq_of_source {g₀ g : Agent} (h : AgentSwept cfg now σ₀ g₀ g)
    (hsource : g.state ∈ AgentSm.allowedSources .AVAILABLE .RECOVERY) : g = g₀ := by
  rcases h.fate with rfl | ⟨hstate, -⟩ | ⟨hstate, -⟩
  · rfl
  · rw [hstate] at hsource
    exact absurd hsource (by decide)
  · rw [hstate] at hsource
    exact absurd hsource (by decide)

/-- A borrower the sweeps have touched is free, and could be told to be. -/
theorem BorrowerSwept.freed {b₀ b : Borrower} (h : BorrowerSwept cfg now σ₀ b₀ b) :
    b = b₀ ∨ b.status.held = false ∧ MayFreeBorrower cfg now σ₀ b₀ := by
  rcases h with rfl | ⟨hpending, hexpired⟩ | ⟨hfree, hended⟩
  · exact Or.inl rfl
  · exact Or.inr ⟨by rw [hpending]; rfl, Or.inl hexpired⟩
  · exact Or.inr ⟨hfree, Or.inr hended⟩

theorem BorrowerSwept.eq_of_held {b₀ b : Borrower} (h : BorrowerSwept cfg now σ₀ b₀ b)
    (hheld : b.status.held = true) : b = b₀ := by
  rcases h.freed with heq | ⟨hfree, -⟩
  · exact heq
  · rw [hfree] at hheld
    cases hheld

theorem CallSwept.eq_of_open {d₀ d : Call} (h : CallSwept cfg now σ₀ d₀ d)
    (hopen : d.terminal = false) : d = d₀ := by
  rcases h with rfl | ⟨hterm, -⟩
  · rfl
  · rw [hopen] at hterm
    cases hterm

/-! ## The operations of the sweeps

`Sanctioned` is what a sweep has to make sure of before it writes, said about `σ₀`. The step lemmas
below then go through the writes that the repositories know and discard those that are not
sanctioned. -/

/-- The writes that stay within reach of sweeps that began at `σ₀`, and all reads. A condition is
asked only where the filter of the write would match in `σ₀`: a write that matches nothing is
harmless. -/
def Sanctioned (cfg : Config) (now : Time) (σ₀ : Store) : Op → Prop
  | .transitionCall c t _ => CallSm.isTerminal t = true
      ∧ ∀ d, σ₀.calls.get? c = some d → d.terminal = false → MayEnd cfg now σ₀ d
  | .releaseAgent a w t actor => t = .AVAILABLE ∧ actor = .RECOVERY
      ∧ ∀ g, σ₀.agents.get? a = some g → g.reservedBy = some w →
        g.state ∈ AgentSm.allowedSources .AVAILABLE .RECOVERY → MayFreeAgent cfg now σ₀ g
  | .releaseExpiredAgentLease candidate _ =>
      ∀ g, σ₀.agents.get? candidate.id = some g → MayFreeAgent cfg now σ₀ g
  | .transitionAgent a s t _ _ =>
      t = .OFFLINE ∧ (∀ g, σ₀.agents.get? a = some g → Silent cfg now g)
      ∨ s = .WRAP_UP ∧ t = .AVAILABLE
        ∧ ∀ g, σ₀.agents.get? a = some g → MayFreeAgent cfg now σ₀ g
  | .releaseBorrower b w .. => ∀ g, σ₀.borrowers.get? b = some g → g.reservedBy = some w →
      g.status.held = true → HeldByEnded cfg now σ₀ g
  | .reclaimBorrowerLease candidate _ =>
      ∀ g, σ₀.borrowers.get? candidate.id = some g → BorrowerRepo.leaseExpired now g
  -- no sweep performs any of these
  | .tryReserveAgent .. | .bindCall .. | .heartbeat .. | .tryReserveBorrower .. | .insertCall ..
  | .attachProviderCallId .. | .originateCall .. | .awaitOriginate .. | .hangupCall .. => False
  | _ => True

/-- A sanctioned write of an agent takes it where the sweeps may take it. -/
theorem AgentSwept.step {o : Op} {t : Time} {a : DocId} {g₀ g g' : Agent}
    (hsanctioned : Sanctioned cfg now σ₀ o) (hg₀ : σ₀.agents.get? a = some g₀) (hid : g.id = a)
    (h : AgentSwept cfg now σ₀ g₀ g) (hwrite : AgentWrite t o g g') :
    AgentSwept cfg now σ₀ g₀ g' := by
  subst hid
  cases hwrite with
  | unchanged => exact h
  | reserve | bind | beat => exact hsanctioned.elim
  | release hworker hstate =>
    obtain ⟨rfl, rfl, hfree⟩ := hsanctioned
    have heq := h.eq_of_source hstate
    subst heq
    exact ⟨AgentRepo.conditionalAccounting_lastHeartbeatAt _ _ _, Or.inl rfl,
      Or.inr (Or.inr ⟨rfl, hfree _ hg₀ hworker hstate⟩)⟩
  | transition target actor =>
    rcases hsanctioned with ⟨rfl, hsilent⟩ | ⟨hwrap, rfl, hfree⟩
    · exact ⟨h.heartbeat, h.bound, Or.inr (Or.inl ⟨rfl, hsilent _ hg₀⟩)⟩
    · exact ⟨h.heartbeat, h.bound, Or.inr (Or.inr ⟨rfl, hfree _ hg₀⟩)⟩
  | reclaim hk =>
    exact ⟨h.heartbeat, Or.inl rfl, Or.inr (Or.inr ⟨rfl, hsanctioned _ (hk.symm ▸ hg₀)⟩)⟩

theorem BorrowerSwept.step {o : Op} {t : Time} {b : DocId} {g₀ g g' : Borrower}
    (hsanctioned : Sanctioned cfg now σ₀ o) (hg₀ : σ₀.borrowers.get? b = some g₀)
    (hid : g.id = b) (h : BorrowerSwept cfg now σ₀ g₀ g) (hwrite : BorrowerWrite t o g g') :
    BorrowerSwept cfg now σ₀ g₀ g' := by
  subst hid
  cases hwrite with
  | unchanged => exact h
  | reserve => exact hsanctioned.elim
  | release outcome m backoff hworker hstatus =>
    have hheld : g.status.held = true := decide_eq_true hstatus
    have heq := h.eq_of_held hheld
    subst heq
    exact Or.inr (Or.inr ⟨BorrowerRepo.not_held_releaseUpdate, hsanctioned _ hg₀ hworker hheld⟩)
  | reclaim hk => exact Or.inr (Or.inl ⟨rfl, hsanctioned _ (hk.symm ▸ hg₀)⟩)

theorem CallSwept.step {o : Op} {t : Time} {c : DocId} {d₀ d d' : Call}
    (hsanctioned : Sanctioned cfg now σ₀ o) (hd₀ : σ₀.calls.get? c = some d₀) (hid : d.id = c)
    (h : CallSwept cfg now σ₀ d₀ d) (hwrite : CallWrite t o d d') :
    CallSwept cfg now σ₀ d₀ d' := by
  subst hid
  rcases hwrite with rfl | ⟨target, reason, rfl, hfilter, rfl⟩ | ⟨q, rfl, -, -⟩
  · exact h
  · obtain ⟨hterm, hend⟩ := hsanctioned
    have heq := h.eq_of_open hfilter.1
    subst heq
    exact Or.inr ⟨hterm, hend _ hd₀ hfilter.1, CallRepo.transitionUpdate_evolves hfilter⟩
  · exact hsanctioned.elim

/-- **A sanctioned operation does nothing that the sweeps may not do.** The three collections are
compared row by row. -/
theorem Swept.op {o : Op} (env : Env) (h : Swept cfg now σ₀ σ)
    (hsanctioned : Sanctioned cfg now σ₀ o) : Swept cfg now σ₀ (exec env o σ).2 where
  agents := fun a => rel_comp (fun _ _ _ hg₀ hg hswept hwrite =>
    AgentSwept.step hsanctioned hg₀ (Collection.key_of_get? hg) hswept hwrite)
    (h.agents a) (exec_agents env o σ a)
  borrowers := fun b => rel_comp (fun _ _ _ hg₀ hg hswept hwrite =>
    BorrowerSwept.step hsanctioned hg₀ (Collection.key_of_get? hg) hswept hwrite)
    (h.borrowers b) (exec_borrowers env o σ b)
  calls := fun c => rel_comp (fun _ _ _ hd₀ hd hswept hwrite =>
    CallSwept.step hsanctioned hd₀ (Calls.id_of_get? hd) hswept hwrite)
    (h.calls c) (exec_calls env σ (fun _ ho => by rw [ho] at hsanctioned; exact hsanctioned) c)

end RecoveryWorker

end SmartDialer
