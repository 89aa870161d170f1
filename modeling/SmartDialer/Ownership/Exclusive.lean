import SmartDialer.Ownership.Invariant
import SmartDialer.Calls.Lifecycle

/-!
# Without recovery, every unfinished call has its agent and its borrower to itself

The discipline follows agents and borrowers, and a queued call that its worker has abandoned
keeps them. What is excluded is what the source leaves to recovery: cancelled tasks, the
recovery sweeps themselves, and agents who log out in the middle of a call.

`Own` with the discipline `pairs` says more than the claim needs; what is left is to read it off:
every live call has a holder, two live calls that shared a party would have two, and no two of them
share their agent, so there are no more calls than busy agents.
-/

namespace SmartDialer

open DocStore Concurrent Ownership

variable {D : Discipline} {σ : Store} {st : Nat → Stage}

/-! ## The holder of a call

An unfinished call is held by the thread that works on it or by itself, and in both cases with its
own agent and borrower. -/

/-- **Somebody holds the parties of a live call**: the thread that works on it, or the call. -/
theorem Own.exists_holder (hfacts : CallFacts σ st) (h : Own D σ st) {c : DocId} {d : Call}
    (hd : σ.calls.get? c = some d) (hlive : D.Live d) :
    ∃ k, (k = .call c ∨ ∃ p, k = .thread p ∧ (st p).claim = some c) ∧
      ∀ x ∈ d.holdings, D.tracks x.1 = true → Holds D σ st k x.1 (D.tag d.createdByWorker) := by
  have hworker : ∀ x ∈ d.holdings, x.2 = d.createdByWorker := by
    intro x hx
    simp only [Call.holdings, List.mem_cons, List.not_mem_nil, or_false] at hx
    rcases hx with rfl | rfl <;> rfl
  by_cases hclaimed : ∃ p, (st p).claim = some c
  · obtain ⟨p, hp⟩ := hclaimed
    refine ⟨.thread p, Or.inr ⟨p, rfl, hp⟩, fun x hx htracks => ?_⟩
    obtain ⟨d', hd', -, hparties⟩ := h.claim_holds hfacts hp
    cases hd.symm.trans hd'
    obtain ⟨w, hw, htag⟩ := hparties x.1 x.2 hx
    exact ⟨htracks, w, hw, hworker x hx ▸ htag⟩
  · refine ⟨.call c, Or.inl rfl, fun x hx htracks => ?_⟩
    exact ⟨htracks, d, hd, hlive, fun p hp => hclaimed ⟨p, hp⟩, _, hworker x hx ▸ hx, rfl⟩

/-- **Two live calls share no followed party.** Both have a holder, the shared party has one only,
and a thread claims one call at a time. -/
theorem Own.live_unique (hfacts : CallFacts σ st) (h : Own D σ st) {c c' : DocId} {d d' : Call}
    (hd : σ.calls.get? c = some d) (hlive : D.Live d) (hd' : σ.calls.get? c' = some d')
    (hlive' : D.Live d') {x : Party} (hx : (x, d.createdByWorker) ∈ d.holdings)
    (hx' : (x, d'.createdByWorker) ∈ d'.holdings) (htracks : D.tracks x = true) : c = c' := by
  obtain ⟨k, hk, hholds⟩ := h.exists_holder hfacts hd hlive
  obtain ⟨k', hk', hholds'⟩ := h.exists_holder hfacts hd' hlive'
  have hfirst : Holds D σ st k x (D.tag d.createdByWorker) := hholds _ hx htracks
  have hsecond : Holds D σ st k' x (D.tag d'.createdByWorker) := hholds' _ hx' htracks
  have hsame := h.owned.exclusive hfirst hsecond
  subst hsame
  rcases hk with rfl | ⟨p, rfl, hp⟩
  · rcases hk' with heq | ⟨p, heq, -⟩
    · exact Holder.call.inj heq
    · cases heq
  · rcases hk' with heq | ⟨q, heq, hq⟩
    · cases heq
    · cases Holder.thread.inj heq
      exact Option.some.inj (hp.symm.trans hq)

/-- A live call finds its agent held: busy, and reserved by the worker that created the call. -/
theorem Own.agent_held (hfacts : CallFacts σ st) (h : Own D σ st) (hD : D.agents = true)
    {c : DocId} {d : Call} (hd : σ.calls.get? c = some d) (hlive : D.Live d) :
    Held σ (.agent d.agentId) (D.tag d.createdByWorker) := by
  obtain ⟨k, -, hholds⟩ := h.exists_holder hfacts hd hlive
  exact h.owned.backed (hholds (.agent d.agentId, d.createdByWorker) List.mem_cons_self hD)

theorem Own.borrower_held (hfacts : CallFacts σ st) (h : Own D σ st) (hD : D.borrowers = true)
    {c : DocId} {d : Call} (hd : σ.calls.get? c = some d) (hlive : D.Live d) :
    Held σ (.borrower d.borrowerId) (D.tag d.createdByWorker) := by
  obtain ⟨k, -, hholds⟩ := h.exists_holder hfacts hd hlive
  exact h.owned.backed (hholds (.borrower d.borrowerId, d.createdByWorker)
    (List.mem_cons_of_mem _ List.mem_cons_self) hD)

/-! ## Who moves an agent out of a busy state

The clause of the regime on agents is about logouts. That nobody else could do the same by
`transition_agent` is a fact about the transition tables and the stages. -/

/-- Only an agent's own logout and recovery's take an agent from a busy state to an idle one by
`transition_agent`. -/
theorem Emits.busy_or_offline {stage : Stage} {a : DocId} {s t : AgentState}
    {actor : TransitionActor} {v : Nat} (h : Emits stage (.transitionAgent a s t actor v))
    (hbusy : s.busy = true) :
    t.busy = true ∨ t = .OFFLINE ∧ (actor = .AGENT ∨ ∃ stale, stage = .sweeping stale) := by
  -- allocator, event, sweep, agent and timer each have their own row of the tables
  cases h with
  | agentDials => exact Or.inl rfl
  | advanceAgent hopen hvalid hstate =>
    refine Or.inl ?_
    revert hopen hstate
    rename_i target _
    cases target <;> intro hopen hstate <;> cases hstate <;> first | rfl | cases hopen
  | moveAgent _ hvalid hkind =>
    rcases hkind with rfl | rfl
    · exact Or.inr ⟨rfl, Or.inr ⟨_, rfl⟩⟩
    · cases hbusy
  | act _ hvalid =>
    refine Or.inr ⟨?_, Or.inl rfl⟩
    revert hbusy
    obtain ⟨hcan, hactor⟩ := hvalid
    revert hcan hactor
    cases s <;> cases t <;> decide
  | finishWrapUp => cases hbusy

/-! ## The regime without recovery

The guard is put to the operation and to the store it finds: no cancellation is raised, and a
transition in an agent's own name, if its filter matches, starts from an idle state. -/

/-- No recovery, no cancelled task, no agent who leaves while reserved or on the phone. -/
def SystemRegime.withoutRecovery : SystemRegime where
  admits := fun job => job ≠ .runSweeps
  guard := fun σ _ _ o env =>
    (∀ f, env.strikes o = some f → f.exn ≠ .cancelled)
      ∧ ∀ a s t v, o = .transitionAgent a s t .AGENT v → env.lands o = true →
        AgentRepo.Matches σ.agents a s v → s.busy = false

/-- Agents and borrowers are followed, and a call holds them from its insertion on. -/
def Discipline.pairs : Discipline where
  agents := true
  borrowers := true
  queuedHolds := true
  recovery := false
  follows := Or.inl rfl
  recovery_agents := without_recovery true true

/-- What the regime lets through, the discipline permits; of the operations that free a busy agent
only the logout is left, and the guard is about it. -/
theorem Discipline.pairs_governs : Discipline.pairs.Governs SystemRegime.withoutRecovery where
  jobs := fun h => absurd rfl h
  ops := fun {σ st p o env} hfacts hown hemits hguard => by
    refine ⟨fun _ => hguard.1, fun a s t actor v ho _ hlands hmatches hbusy => ?_,
      fun _ _ hrec => nomatch hrec⟩
    subst ho
    rcases hemits.busy_or_offline hbusy with htarget | ⟨-, rfl | ⟨stale, hs⟩⟩
    · exact htarget
    · rw [hguard.2 a s t v rfl hlands hmatches] at hbusy
      cases hbusy
    · have hclaims := hown.claims p
      rw [hs] at hclaims
      cases (show false = true from hclaims)

/-- **Exclusive parties.** In every world that is reached without recovery from a store with no
call, an unfinished call has a busy agent and a reserved borrower, both reserved by the worker
that created it; two unfinished calls share neither; and there are no more of them than busy
agents. -/
theorem active_calls_exclusive {cfg : Config} {σ₀ : Store} {w : SystemWorld}
    (hcalls : ∀ c, σ₀.calls.get? c = none)
    (h : Reachable (system cfg) SystemRegime.withoutRecovery (World.fresh σ₀) w) :
    (∀ c d, w.store.calls.get? c = some d → d.terminal = false →
      (∃ g, w.store.agents.get? d.agentId = some g ∧ g.state.busy = true
        ∧ g.reservedBy = some d.createdByWorker)
      ∧ ∃ b, w.store.borrowers.get? d.borrowerId = some b ∧ b.status = .RESERVED
        ∧ b.reservedBy = some d.createdByWorker)
    ∧ (∀ c c' d d', w.store.calls.get? c = some d → w.store.calls.get? c' = some d' →
      d.terminal = false → d'.terminal = false →
      d.agentId = d'.agentId ∨ d.borrowerId = d'.borrowerId → c = c')
    ∧ (w.store.calls.coll.find fun d => d.terminal = false).length
      ≤ (w.store.agents.find fun g => g.state.busy = true).length := by
  obtain ⟨hfacts, hown⟩ := own_of_reachable Discipline.pairs_governs hcalls h
  have hlive : ∀ d : Call, d.terminal = false → Discipline.pairs.Live d :=
    fun d hopen => ⟨hopen, nofun⟩
  -- the busy agent, needed twice: for the first part and to count
  have hagent : ∀ c d, w.store.calls.get? c = some d → d.terminal = false →
      ∃ g, w.store.agents.get? d.agentId = some g ∧ g.state.busy = true
        ∧ g.reservedBy = some d.createdByWorker := by
    intro c d hd hopen
    obtain ⟨g, hg, hbusy, hworker⟩ := hown.agent_held hfacts rfl hd (hlive d hopen)
    exact ⟨g, hg, hbusy, hworker _ rfl⟩
  have hunique : ∀ c c' d d', w.store.calls.get? c = some d → w.store.calls.get? c' = some d' →
      d.terminal = false → d'.terminal = false →
      d.agentId = d'.agentId ∨ d.borrowerId = d'.borrowerId → c = c' := by
    intro c c' d d' hd hd' hopen hopen' hshared
    rcases hshared with hsame | hsame
    · refine hown.live_unique hfacts hd (hlive d hopen) hd' (hlive d' hopen')
        (x := .agent d.agentId) ?_ ?_ rfl
      · simp [Call.holdings]
      · simp [Call.holdings, hsame]
    · refine hown.live_unique hfacts hd (hlive d hopen) hd' (hlive d' hopen')
        (x := .borrower d.borrowerId) ?_ ?_ rfl
      · simp [Call.holdings]
      · simp [Call.holdings, hsame]
  -- the number of calls: no two of them share their agent
  refine ⟨fun c d hd hopen => ⟨hagent c d hd hopen, ?_⟩, hunique, ?_⟩
  · obtain ⟨b, hb, hreserved, hworker⟩ := hown.borrower_held hfacts rfl hd (hlive d hopen)
    exact ⟨b, hb, hreserved, hworker _ rfl⟩
  · refine Collection.length_find_le_of_injective Call.agentId (fun d hd => ?_)
      fun d hd d' hd' hsame => ?_
    · obtain ⟨hget, hopen⟩ := Collection.mem_find.mp hd
      obtain ⟨g, hg, hbusy, -⟩ := hagent _ d hget hopen
      exact ⟨g, hg, hbusy⟩
    · obtain ⟨hget, hopen⟩ := Collection.mem_find.mp hd
      obtain ⟨hget', hopen'⟩ := Collection.mem_find.mp hd'
      have hid : d.id = d'.id := hunique _ _ d d' hget hget' hopen hopen' (Or.inl hsame)
      have hsecond : w.store.calls.get? d.id = some d' := by
        rw [hid]
        exact hget'
      exact Option.some.inj (hget.symm.trans hsecond)

/-! The theorem at two workers who dial side by side, each for the first of what the other has left,
and are both in the middle of it. -/

/-- Nothing fails and no agent acts. -/
def Uneventful (e : Entry Op Res Exn Env) : Bool :=
  e.env.fault.isNone && match e.op with
    | .transitionAgent _ _ _ .AGENT _ => false
    | _ => true

/-- An operation without failure that is no agent's own transition meets the guard, whatever the
store and the stages are. -/
theorem SystemRegime.withoutRecovery_of_uneventful {e : Entry Op Res Exn Env}
    (h : Uneventful e = true) (σ : Store) (st : Nat → Stage) :
    SystemRegime.withoutRecovery.guard σ st e.pid e.op e.env := by
  obtain ⟨hfault, hop⟩ := Bool.and_eq_true_iff.mp h
  refine ⟨fun f hf => ?_, fun a s t v ho => ?_⟩
  · rw [Env.strikes, Option.isNone_iff_eq_none.mp hfault] at hf
    cases hf
  · rw [ho] at hop
    cases hop

/-- The action begins a pass of recovery. -/
def beginsSweeps : Action Job Env → Bool
  | .spawn _ .runSweeps => true
  | _ => false

/-- Both workers after twelve operations: each has a call that is `INITIATED`. -/
def sideBySide : SystemWorld := (World.fresh twoPairs).acts (system {}) (sideBySideActions 12)

theorem sideBySide_reachable :
    Reachable (system {}) SystemRegime.withoutRecovery (World.fresh twoPairs) sideBySide := by
  have hquiet : ∀ e ∈ sideBySide.trace, Uneventful e = true := by decide +kernel
  refine Reachable.of_acts _ (sideBySideActions 12) (fun p job hjob => ?_) fun e he σ st =>
    SystemRegime.withoutRecovery_of_uneventful (hquiet e he) σ st
  rintro rfl
  have hsweeps : ∀ a ∈ sideBySideActions 12, beginsSweeps a = false := by decide
  cases hsweeps _ hjob

/-- Both calls are under way, each with an agent and a borrower of its own. -/
theorem active_calls_exclusive_demo : ∃ d d',
    sideBySide.store.calls.get? demoEnv.newId = some d
    ∧ sideBySide.store.calls.get? secondEnv.newId = some d'
    ∧ d.terminal = false ∧ d'.terminal = false
    ∧ d.agentId ≠ d'.agentId ∧ d.borrowerId ≠ d'.borrowerId
    ∧ (sideBySide.store.calls.coll.find fun d => d.terminal = false).length
      ≤ (sideBySide.store.agents.find fun g => g.state.busy = true).length := by
  have hfirst : (sideBySide.store.calls.get? demoEnv.newId).map Call.terminal = some false := by
    decide +kernel
  have hsecond : (sideBySide.store.calls.get? secondEnv.newId).map Call.terminal = some false := by
    decide +kernel
  obtain ⟨d, hd, hopen⟩ := Option.map_eq_some_iff.mp hfirst
  obtain ⟨d', hd', hopen'⟩ := Option.map_eq_some_iff.mp hsecond
  obtain ⟨-, hunique, hcount⟩ := active_calls_exclusive (fun _ => rfl) sideBySide_reachable
  have hapart : ¬ (d.agentId = d'.agentId ∨ d.borrowerId = d'.borrowerId) := fun hshared =>
    absurd (hunique _ _ d d' hd hd' hopen hopen' hshared) (by decide)
  exact ⟨d, d', hd, hd', hopen, hopen', fun h => hapart (Or.inl h), fun h => hapart (Or.inr h),
    hcount⟩

end SmartDialer
