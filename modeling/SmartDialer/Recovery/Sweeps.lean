import SmartDialer.Recovery.Scope
import SmartDialer.Workers.RecoveryWorker

/-!
# The sweeps stay within their scope

`maintains_runSweeps`: whatever fails in between, a run of the sweeps that begins at `σ₀` ends in
a store that is `Swept` from `σ₀`. The proof follows the program; the candidates of a sweep carry
what the query that found them says about `σ₀`.

`Stays` is the judgement of this module: a program performs sanctioned operations only, and its
result tells something about `σ₀`. It has a rule for each way programs are put together, so the
lemmas below are the programs read once more.

* `stays_cancelBoundCall`, `stays_releaseParties`: how a call is ended and what is released with it.
* `stays_sweep…Loop`: the loops, each for candidates of its own kind.
* `…_find`: the queries answer candidates of this kind, at whatever point of the pass they are made.
* `stays_sweeps`, `swept_afterSweeps`: the whole pass.
-/

namespace SmartDialer

open DocStore Concurrent Prog

namespace RecoveryWorker

variable {cfg : Config} {now : Time} {σ₀ : Store} {ok : Op → Env → Prop} {E : Exn → Prop}
  {F : Store → Prop}

/-! ## Staying within the scope

`Stays` is stated for every property that no sanctioned operation spoils, so that later modules can
carry a property of their own through a pass without going through the program again. -/

/-- The exceptions that may escape from the sweeps in admissible environments. What the provider
raises as a `ProviderError` never does. -/
structure Escapes (ok : Op → Env → Prop) (E : Exn → Prop) : Prop where
  sanctioned : ∀ {cfg now σ₀ o env σ e}, ok o env → Sanctioned cfg now σ₀ o →
    (exec env o σ).1 = .error e → (∃ n p, o = .getCallStatus n p) ∧ e.isProviderError = true ∨ E e

/-- A property that no sanctioned operation spoils. -/
def Stable (cfg : Config) (now : Time) (σ₀ : Store) (F : Store → Prop) : Prop :=
  ∀ {σ o} env, Swept cfg now σ₀ σ → Sanctioned cfg now σ₀ o → F σ → F (exec env o σ).2

/-- What holds while the sweeps that began at `σ₀` are running. -/
def During (cfg : Config) (now : Time) (σ₀ : Store) (F : Store → Prop) (σ : Store) : Prop :=
  Swept cfg now σ₀ σ ∧ F σ

/-- `x` performs sanctioned operations only, keeps whatever these keep, and its result satisfies
`Q`. Exceptions that escape satisfy `E`. -/
def Stays (ok : Op → Env → Prop) (E : Exn → Prop) (cfg : Config) (now : Time) (σ₀ : Store)
    {α : Type} (x : Py α) (Q : α → Prop) : Prop :=
  ∀ F, Stable cfg now σ₀ F → Maintains exec ok (During cfg now σ₀ F) x Q E

variable {α β : Type} {x : Py α} {Q : α → Prop} {Q' : β → Prop}

theorem Stays.pure {a : α} (ha : Q a) : Stays ok E cfg now σ₀ (Pure.pure a) Q :=
  fun _ _ => Maintains.pure ha

theorem Stays.bind {f : α → Py β} (hx : Stays ok E cfg now σ₀ x Q)
    (hf : ∀ a, Q a → Stays ok E cfg now σ₀ (f a) Q') : Stays ok E cfg now σ₀ (x >>= f) Q' :=
  fun _ hF => Maintains.bind (hx _ hF) fun a ha => hf a ha _ hF

theorem Stays.catching {E' : Exn → Prop} {handler : Exn → Py α}
    (hx : Stays ok E cfg now σ₀ x Q) (hh : ∀ e, E e → Stays ok E' cfg now σ₀ (handler e) Q) :
    Stays ok E' cfg now σ₀ (x.catching handler) Q :=
  fun _ hF => Maintains.catching (hx _ hF) fun e he => hh e he _ hF

theorem Stays.raise {e : Exn} (he : E e) : Stays ok E cfg now σ₀ (.raise e) Q :=
  fun _ _ => Maintains.raise he

variable (hE : Escapes ok E)

include hE

/-- An operation: it must be sanctioned, and what its answer tells must follow from `Swept`. -/
theorem Stays.call {o : Op} {Q : Res o → Prop} (hsanctioned : Sanctioned cfg now σ₀ o)
    (hprovider : ∀ n p, o ≠ .getCallStatus n p)
    (hanswer : ∀ σ env a, Swept cfg now σ₀ σ → (apply env o σ).1 = .ok a → Q a) :
    Stays ok E cfg now σ₀ (SmartDialer.call o) Q :=
  fun _ hF => Maintains.perform fun σ env hσ henv =>
    ⟨⟨hσ.1.op env hsanctioned, hF env hσ.1 hsanctioned hσ.2⟩,
      fun a ha => hanswer σ env a hσ.1 (exec_of_ok ha ▸ ha),
      fun _ he => (hE.sanctioned henv hsanctioned he).resolve_left
        fun ⟨⟨n, p, ho⟩, _⟩ => hprovider n p ho⟩

theorem Stays.call' {o : Op} (hsanctioned : Sanctioned cfg now σ₀ o)
    (hprovider : ∀ n p, o ≠ .getCallStatus n p) :
    Stays ok E cfg now σ₀ (SmartDialer.call o) fun _ => True :=
  .call hE hsanctioned hprovider fun _ _ _ _ _ => trivial

/-! ## Ending a call

A call is ended by a transition whose filter decides whether it is still open. What is answered is
the call after the update: its parties are those it had at `σ₀`. -/

/-- `e` is a call that the sweeps have ended, with its parties as they were at `σ₀`. -/
structure EndedFrom (σ₀ : Store) (c : DocId) (e : Call) : Prop where
  origin : ∃ d, σ₀.calls.get? c = some d ∧ d.terminal = false ∧ e.agentId = d.agentId
    ∧ e.borrowerId = d.borrowerId ∧ e.createdByWorker = d.createdByWorker

/-- The transition of a call that may be ended. Calls never change their parties. -/
theorem stays_transitionCall {c : DocId} {t : CallState} {reason : Option String}
    (hsanctioned : Sanctioned cfg now σ₀ (.transitionCall c t reason)) :
    Stays ok E cfg now σ₀ (call (.transitionCall c t reason))
      fun ended => ∀ e ∈ ended, EndedFrom σ₀ c e := by
  refine .call hE hsanctioned nofun fun σ env a hσ ha e he => ?_
  rcases CallRepo.transitionCall_cases env.now c t reason σ.calls
    with ⟨d, hd, hfilter, hans, -, -⟩ | ⟨-, hnone, -⟩
  · obtain ⟨d₀, hd₀, hswept⟩ := rel_right (hσ.calls c) hd
    obtain rfl := hswept.eq_of_open hfilter.1
    have heq : some e = some (CallRepo.transitionUpdate t reason env.now d).fromMongo :=
      (Option.mem_def.mp he).symm.trans ((Except.ok.inj ha).symm.trans hans)
    cases heq
    have hev : d.Evolves (CallRepo.transitionUpdate t reason env.now d).fromMongo :=
      CallRepo.transitionUpdate_evolves hfilter
    exact ⟨d, hd₀, hfilter.1, hev.agentId, hev.borrowerId, hev.createdByWorker⟩
  · cases (Option.mem_def.mp he).symm.trans ((Except.ok.inj ha).symm.trans hnone)

theorem stays_releaseBorrower {c : DocId} {e : Call} (he : EndedFrom σ₀ c e)
    (hend : ∀ d, σ₀.calls.get? c = some d → d.terminal = false → MayEnd cfg now σ₀ d) :
    Stays ok E cfg now σ₀ (releaseBorrower cfg e) fun _ => True := by
  obtain ⟨d, hd, hopen, -, hborrower, hworker⟩ := he.origin
  refine .bind (.call' hE (fun b hb hreserved hheld =>
    ⟨hheld, c, d, hd, hend d hd hopen, ?_, ?_⟩) nofun) fun _ _ => .pure trivial
  · rw [← hborrower]
    exact (Collection.key_of_get? hb).symm
  · rw [← hworker]
    exact hreserved

/-- The call an agent is bound to is read, and cancelled if it is open. -/
theorem stays_cancelBoundCall {agent : Agent} {reason : String}
    (hend : ∀ c ∈ agent.currentCallId, ∀ d, σ₀.calls.get? c = some d → d.terminal = false →
      MayEnd cfg now σ₀ d) :
    Stays ok E cfg now σ₀ (cancelBoundCall cfg agent reason) fun _ => True := by
  unfold cancelBoundCall
  cases hc : agent.currentCallId with
  | none => exact .pure trivial
  | some c =>
    have hend := hend c hc
    refine .bind (Q := fun bound => ∀ b ∈ bound, b.id = c) (.call hE trivial nofun fun σ env a _ ha b hb => ?_)
      fun bound hbound => ?_
    · have hfound : CallRepo.findById c σ.calls = some b :=
        (Except.ok.inj ha).trans (Option.mem_def.mp hb)
      obtain ⟨d, hd, rfl⟩ := Option.map_eq_some_iff.mp hfound
      have hid := Calls.id_of_get? hd
      exact hid
    · cases bound with
      | none => exact .pure trivial
      | some b =>
        have hid : b.id = c := hbound b rfl
        subst hid
        show Stays ok E cfg now σ₀ (if b.terminal then _ else _) _
        -- a finished call is left alone
        split
        · exact .pure trivial
        · refine .bind (stays_transitionCall hE ⟨rfl, hend⟩) fun ended hended => ?_
          cases ended with
          | none => exact .pure trivial
          | some e => exact stays_releaseBorrower hE (hended e rfl) hend

/-! ## The loops over the candidates

Each loop is an induction on its candidates. What a query has said about them is a statement about
`σ₀`, so the iterations before do not invalidate it. -/

/-- The candidates of the first sweep are agents of `σ₀` with an expired lease. -/
def ExpiredAgents (now : Time) (σ₀ : Store) (agents : List Agent) : Prop :=
  ∀ g ∈ agents, σ₀.agents.get? g.id = some g ∧ AgentRepo.leaseExpired now g

theorem stays_sweepExpiredAgentLeasesLoop {agents : List Agent} (h : ExpiredAgents now σ₀ agents)
    (n : Nat) :
    Stays ok E cfg now σ₀ (sweepExpiredAgentLeasesLoop cfg now agents n) fun _ => True := by
  induction agents generalizing n with
  | nil => exact .pure trivial
  | cons g agents ih =>
    obtain ⟨hg, hexpired⟩ := h g List.mem_cons_self
    refine .bind (stays_cancelBoundCall hE (mayEnd_of_leaseExpired hexpired hg)) fun _ _ => ?_
    refine .bind (.call' hE (fun g' hg' => ?_) nofun) fun _ _ =>
      ih (fun g' hg' => h g' (List.mem_cons_of_mem _ hg')) _
    cases hg.symm.trans hg'
    exact Or.inl hexpired

/-- The candidates of the second sweep. -/
def ExpiredBorrowers (now : Time) (σ₀ : Store) (candidates : List Borrower) : Prop :=
  ∀ b ∈ candidates, ∀ b₀, σ₀.borrowers.get? b.id = some b₀ → BorrowerRepo.leaseExpired now b₀

theorem stays_reclaimLoop {candidates : List Borrower}
    (h : ExpiredBorrowers now σ₀ candidates) (n : Nat) :
    Stays ok E cfg now σ₀ (reclaimLoop now candidates n) fun _ => True := by
  induction candidates generalizing n with
  | nil => exact .pure trivial
  | cons b candidates ih =>
    exact .bind (.call' hE (h b List.mem_cons_self) nofun) fun _ _ =>
      ih (fun b' hb' => h b' (List.mem_cons_of_mem _ hb')) _

/-- Asking the provider lets no `ProviderError` escape. -/
theorem stays_reconcileWithProvider (orphan : Call) :
    Stays ok E cfg now σ₀ (reconcileWithProvider cfg orphan)
      fun t => CallSm.isTerminal t = true := by
  unfold reconcileWithProvider
  split
  · exact .pure rfl
  · refine .catching (E := fun e => e.isProviderError = true ∨ E e)
      (.bind (Q := fun _ => True) ?_ fun _ _ => .bind (Q := fun _ => True) ?_
        fun status _ => .pure ?_) fun e he => ?_
    · unfold providerRegistryGet
      split
      · exact .pure trivial
      · exact .raise (Or.inl rfl)
    · exact fun F hF => Maintains.perform fun σ env hσ henv =>
        ⟨⟨hσ.1.op env trivial, hF env hσ.1 trivial hσ.2⟩, fun _ _ => trivial,
          fun e he => (hE.sanctioned henv (show Sanctioned cfg now σ₀ _ from trivial) he).imp_left
            And.right⟩
    · cases status <;> rfl
    · split
      · exact .pure rfl
      · next hprovider => exact .raise (he.resolve_left hprovider)

/-- The candidates of the third sweep were stale at `σ₀`, if they were unfinished. -/
def StaleCalls (cfg : Config) (now : Time) (σ₀ : Store) (orphans : List Call) : Prop :=
  ∀ e ∈ orphans, ∀ d, σ₀.calls.get? e.id = some d → d.terminal = false →
    CallRepo.stale (staleCutoff cfg now) d

omit hE in
theorem StaleCalls.mayEnd {orphan : Call} {orphans : List Call}
    (h : StaleCalls cfg now σ₀ (orphan :: orphans)) {d : Call}
    (hd : σ₀.calls.get? orphan.id = some d) (hopen : d.terminal = false) :
    MayEnd cfg now σ₀ d :=
  ⟨hopen, Or.inl (h orphan List.mem_cons_self d hd hopen).2⟩

theorem stays_releaseParties {e : Call} {orphan : Call} {orphans : List Call}
    (h : StaleCalls cfg now σ₀ (orphan :: orphans)) (he : EndedFrom σ₀ orphan.id e) :
    Stays ok E cfg now σ₀ (releaseParties cfg e) fun _ => True := by
  refine .bind (Q := fun _ => True) ?_ fun _ _ =>
    stays_releaseBorrower hE he fun d hd hopen => h.mayEnd hd hopen
  obtain ⟨d, hd, hopen, hagent, -, hworker⟩ := he.origin
  refine .call' hE ⟨rfl, rfl, fun g hg hreserved hsource => Or.inr (Or.inr ⟨hsource, orphan.id, d,
    hd, h orphan List.mem_cons_self d hd hopen, ?_, ?_⟩)⟩ nofun
  · rw [← hagent]
    exact (Collection.key_of_get? hg).symm
  · rw [← hworker]
    exact hreserved

theorem stays_sweepOrphanedCallsLoop {orphans : List Call} (h : StaleCalls cfg now σ₀ orphans)
    (n : Nat) : Stays ok E cfg now σ₀ (sweepOrphanedCallsLoop cfg orphans n) fun _ => True := by
  induction orphans generalizing n with
  | nil => exact .pure trivial
  | cons orphan orphans ih =>
    have ih := ih fun e he => h e (List.mem_cons_of_mem _ he)
    refine .bind (stays_reconcileWithProvider hE orphan) fun t ht => ?_
    refine .bind (stays_transitionCall hE ⟨ht, fun d hd hopen => h.mayEnd hd hopen⟩)
      fun finished hfinished => ?_
    cases finished with
    | none => exact ih _
    | some e => exact .bind (stays_releaseParties hE h (hfinished e rfl)) fun _ _ => ih _

/-- `transition_agent` along an edge that recovery may take: the check passes, so only the update is
left. -/
theorem stays_transitionAgent {a : DocId} {s t : AgentState} {actor : TransitionActor} {v : Nat}
    (hvalid : AgentSm.canTransition s t = true ∧ AgentSm.isActorAllowed s t actor = true)
    (hsanctioned : Sanctioned cfg now σ₀ (.transitionAgent a s t actor v)) :
    Stays ok E cfg now σ₀ (transitionAgent a s t actor v) fun _ => True := by
  refine .bind (Q := fun _ => True) ?_ fun _ _ => .call' hE hsanctioned nofun
  unfold validateTransition
  rw [hvalid.1, hvalid.2]
  exact .pure trivial

/-- The candidates of the fourth sweep were silent at `σ₀`, and what they are bound to they were
bound to then. -/
def SilentAgents (cfg : Config) (now : Time) (σ₀ : Store) (agents : List Agent) : Prop :=
  ∀ g ∈ agents, g.state ≠ .OFFLINE ∧ ∃ g₀, σ₀.agents.get? g.id = some g₀ ∧ Silent cfg now g₀
    ∧ (g.currentCallId = none ∨ g.currentCallId = g₀.currentCallId
      ∧ AgentRepo.heartbeatExpired (heartbeatCutoff cfg now) g₀)

omit hE in
theorem SilentAgents.mayEnd {g : Agent} {agents : List Agent}
    (h : SilentAgents cfg now σ₀ (g :: agents)) :
    ∀ c ∈ g.currentCallId, ∀ d, σ₀.calls.get? c = some d → d.terminal = false →
      MayEnd cfg now σ₀ d := by
  intro c hc d hd hopen
  obtain ⟨-, g₀, hg₀, -, hnone | ⟨hsame, hexpired⟩⟩ := h g List.mem_cons_self
  · rw [Option.mem_def.mp hc] at hnone
    cases hnone
  · refine ⟨hopen, Or.inr ⟨g.id, g₀, hg₀, ?_, Or.inr hexpired⟩⟩
    rw [← hsame, Option.mem_def.mp hc, Calls.id_of_get? hd]

theorem stays_logout {g : Agent} {agents : List Agent}
    (h : SilentAgents cfg now σ₀ (g :: agents)) :
    Stays ok E cfg now σ₀ (transitionAgent g.id g.state .OFFLINE .RECOVERY g.stateVersion)
      fun _ => True := by
  obtain ⟨hstate, g₀, hg₀, hsilent, -⟩ := h g List.mem_cons_self
  refine stays_transitionAgent hE (AgentSm.valid_offline hstate) (Or.inl ⟨rfl, fun g' hg' => ?_⟩)
  cases hg₀.symm.trans hg'
  exact hsilent

theorem stays_sweepHeartbeatTimeoutsLoop {agents : List Agent}
    (h : SilentAgents cfg now σ₀ agents) (n : Nat) :
    Stays ok E cfg now σ₀ (sweepHeartbeatTimeoutsLoop cfg agents n) fun _ => True := by
  induction agents generalizing n with
  | nil => exact .pure trivial
  | cons g agents ih =>
    exact .bind (stays_cancelBoundCall hE h.mayEnd) fun _ _ => .bind (stays_logout hE h)
      fun _ _ => ih (fun g' hg' => h g' (List.mem_cons_of_mem _ hg')) _

/-- The candidates of the fifth sweep. -/
def StuckAgents (cfg : Config) (now : Time) (σ₀ : Store) (agents : List Agent) : Prop :=
  ∀ g ∈ agents, σ₀.agents.get? g.id = some g
    ∧ AgentRepo.wrapUpExpired (wrapUpCutoff cfg now) none g

omit hE in
theorem StuckAgents.mayFree {g : Agent} {agents : List Agent}
    (h : StuckAgents cfg now σ₀ (g :: agents)) {g' : Agent}
    (hg' : σ₀.agents.get? g.id = some g') : MayFreeAgent cfg now σ₀ g' := by
  obtain ⟨hg, hexpired⟩ := h g List.mem_cons_self
  cases hg.symm.trans hg'
  exact Or.inr (Or.inl hexpired)

theorem stays_sweepStuckWrapUpsLoop {agents : List Agent} (h : StuckAgents cfg now σ₀ agents)
    (n : Nat) : Stays ok E cfg now σ₀ (sweepStuckWrapUpsLoop agents n) fun _ => True := by
  induction agents generalizing n with
  | nil => exact .pure trivial
  | cons g agents ih =>
    exact .bind (stays_transitionAgent hE (by decide)
      (Or.inr ⟨rfl, rfl, fun g' hg' => h.mayFree hg'⟩)) fun _ _ =>
      ih (fun g' hg' => h g' (List.mem_cons_of_mem _ hg')) _

/-! ## The queries

A query finds rows of the store as it is by then. Since sweeping makes nobody due, each of them was
due at `σ₀`. -/

omit hE

variable {σ : Store}

theorem expiredAgents_find (hσ : Swept cfg now σ₀ σ) (limit : Int) :
    ExpiredAgents now σ₀ (AgentRepo.findExpiredAgentLeases now limit σ.agents) := by
  intro g hg
  obtain ⟨hget, hexpired⟩ := Collection.mem_find.mp (limited_subset hg)
  obtain ⟨g₀, hg₀, hswept⟩ := rel_right (hσ.agents _) hget
  obtain rfl := hswept.eq_of_source hexpired.1
  exact ⟨hg₀, hexpired⟩

theorem expiredBorrowers_find (hσ : Swept cfg now σ₀ σ) (limit : Int) :
    ExpiredBorrowers now σ₀
      (BorrowerRepo.findExpiredBorrowerLeases now limit σ.borrowers) := by
  intro b hb b₀ hb₀
  obtain ⟨hget, hexpired⟩ := Collection.mem_find.mp (limited_subset hb)
  obtain ⟨b₁, hb₁, hswept⟩ := rel_right (hσ.borrowers _) hget
  obtain rfl := hswept.eq_of_held (decide_eq_true hexpired.1)
  cases hb₁.symm.trans hb₀
  exact hexpired

theorem staleCalls_find (hσ : Swept cfg now σ₀ σ) (limit : Int) :
    StaleCalls cfg now σ₀ (CallRepo.findStaleCalls (staleCutoff cfg now) limit σ.calls) := by
  intro e he d hd hopen
  obtain ⟨d', hd', hstale, rfl⟩ := CallRepo.mem_findStaleCalls he
  obtain ⟨d₀, hd₀, hswept⟩ := rel_right (hσ.calls _) hd'
  obtain rfl := hswept.eq_of_open hstale.1
  cases hd₀.symm.trans hd
  exact hstale

theorem silentAgents_find (hσ : Swept cfg now σ₀ σ) (limit : Int) :
    SilentAgents cfg now σ₀
      (AgentRepo.findHeartbeatExpired (heartbeatCutoff cfg now) limit σ.agents) := by
  intro g hg
  obtain ⟨hget, hstate, hsilent⟩ := Collection.mem_find.mp (limited_subset hg)
  obtain ⟨g₀, hg₀, hswept⟩ := rel_right (hσ.agents _) hget
  rw [hswept.heartbeat] at hsilent
  refine ⟨hstate, g₀, hg₀, hsilent, hswept.bound.imp_right fun hbound => ⟨hbound, ?_, hsilent⟩⟩
  -- an agent freed by an earlier sweep was not logged out at the beginning
  rcases hswept.fate with rfl | ⟨hoff, -⟩ | ⟨-, hfree⟩
  · exact hstate
  · exact absurd hoff hstate
  · exact hfree.ne_offline

theorem stuckAgents_find (hσ : Swept cfg now σ₀ σ) (limit : Int) :
    StuckAgents cfg now σ₀
      (AgentRepo.findExpiredWrapUps (wrapUpCutoff cfg now) limit none σ.agents) := by
  intro g hg
  have hmem := limited_subset hg
  rw [List.mem_insertionSort] at hmem
  obtain ⟨hget, hexpired⟩ := Collection.mem_find.mp hmem
  obtain ⟨g₀, hg₀, hswept⟩ := rel_right (hσ.agents _) hget
  have hsource : g.state ∈ AgentSm.allowedSources .AVAILABLE .RECOVERY := by
    rw [hexpired.1]
    decide
  obtain rfl := hswept.eq_of_source hsource
  exact ⟨hg₀, hexpired⟩

/-! ## The whole run

The loop over the sweeps catches what they raise, so the next sweep starts within the scope in any
case. -/

include hE

/-- Each of the five sweeps: its query, then its loop. -/
theorem stays_sweeps (limit : Int) :
    ∀ p ∈ sweeps cfg now limit, Stays ok E cfg now σ₀ p.2 fun _ => True := by
  unfold sweeps
  simp only [List.forall_mem_cons]
  refine ⟨.bind (.call hE trivial nofun fun σ env a hσ ha =>
      Except.ok.inj ha ▸ expiredAgents_find hσ limit)
      fun agents h => stays_sweepExpiredAgentLeasesLoop hE h 0,
    .bind (.call hE trivial nofun fun σ env a hσ ha =>
      Except.ok.inj ha ▸ expiredBorrowers_find hσ limit)
      fun candidates h => stays_reclaimLoop hE h 0,
    .bind (.call hE trivial nofun fun σ env a hσ ha =>
      Except.ok.inj ha ▸ staleCalls_find hσ limit)
      fun orphans h => stays_sweepOrphanedCallsLoop hE h 0,
    .bind (.call hE trivial nofun fun σ env a hσ ha =>
      Except.ok.inj ha ▸ silentAgents_find hσ limit)
      fun agents h => stays_sweepHeartbeatTimeoutsLoop hE h 0,
    .bind (.call hE trivial nofun fun σ env a hσ ha =>
      Except.ok.inj ha ▸ stuckAgents_find hσ limit)
      fun agents h => stays_sweepStuckWrapUpsLoop hE h 0,
    fun _ hp => absurd hp List.not_mem_nil⟩

omit hE

theorem stays_runSweepsLoop {l : List (SweepName × Py Nat)}
    (h : ∀ p ∈ l, Stays ok E cfg now σ₀ p.2 fun _ => True) (counts : RecoverySweepCounts) :
    Stays ok E cfg now σ₀ (runSweepsLoop l counts) fun _ => True := by
  induction l generalizing counts with
  | nil => exact .pure trivial
  | cons p l ih =>
    obtain ⟨name, sweep⟩ := p
    refine .bind (Q := fun _ => True) (.catching (.bind (h _ List.mem_cons_self)
      fun _ _ => .pure trivial) fun e he => ?_)
      fun counts _ => ih (fun p hp => h p (List.mem_cons_of_mem _ hp)) counts
    split
    · exact .pure trivial
    · exact .raise he

/-! ## A run of the worker

A pass that runs alone is a function of the store and of what its operations meet. -/

/-- The store after one `run_sweeps` that runs alone; operation `n` meets `envs n`. -/
def afterSweeps (cfg : Config) (envs : Nat → Env) (σ : Store) : Store :=
  ((runSweeps cfg).run exec envs 0 σ).2.1

/-- Reading the clock comes first; the sweeps of a run share what it says. -/
theorem afterSweeps_eq (cfg : Config) (envs : Nat → Env) (σ : Store) :
    afterSweeps cfg envs σ = ((runSweepsLoop
      (sweeps cfg (envs 0).now cfg.settings.RECOVERY_SWEEP_LIMIT) {}).run exec envs 1 σ).2.1 := by
  have hclock : exec (envs 0) .utcNow σ = (.ok (envs 0).now, σ) := by
    rcases exec_cases (envs 0) .utcNow σ with h | ⟨f, -, hraises, -⟩
    · exact h
    · cases hraises
  unfold afterSweeps runSweeps
  show (((Prog.perform Op.utcNow : Py Time).bind _).run exec envs 0 σ).2.1 = _
  unfold Prog.perform Prog.bind Prog.run
  rw [hclock]
  rfl

/-- **The sweeps do nothing that lies outside their scope**, whatever fails in between. -/
theorem swept_afterSweeps (cfg : Config) (envs : Nat → Env) (σ : Store) :
    Swept cfg (envs 0).now σ (afterSweeps cfg envs σ) := by
  have hE : Escapes (fun _ _ => True) (fun _ => True) := ⟨fun _ _ _ => Or.inr trivial⟩
  rw [afterSweeps_eq]
  have hall : ∀ p ∈ sweeps cfg (envs 0).now cfg.settings.RECOVERY_SWEEP_LIMIT,
      Stays (fun _ _ => True) (fun _ => True) cfg (envs 0).now σ p.2 fun _ => True :=
    stays_sweeps hE _
  have hstays := stays_runSweepsLoop hall {}
  exact (run_of_wp (hstays (fun _ => True) (fun _ _ _ _ => trivial) σ ⟨.refl σ, trivial⟩)
    (fun _ _ => trivial) 1).1.1

end RecoveryWorker

end SmartDialer
