import SmartDialer.Calls.Lifecycle
import SmartDialer.Lib.Passage
import SmartDialer.Recovery.Coverage

/-!
# One pass of recovery is complete

Each sweep leaves nothing of what it selects, and no sweep, earlier or later, makes new work for
another: whatever a selection finds after some sweeping it would have found before. So after a
pass in which nothing failed no selection finds anything at the same instant, and a second pass
has nothing to do.

* `Swept.leaseExpired` and its likes: sweeping makes no new work.
* `reaches_agentOffline`: the fourth sweep, which `Coverage` leaves out.
* `runEach`, `sweepBegins`: a pass as one sweep after another, with the store in which each begins.
* `agentLeases_done` to `wrapUps_done`: what each sweep leaves of what it selects, if its candidates
  fit the limit.
* `pass_complete`: all five, and the second pass.
-/

namespace SmartDialer

open DocStore Concurrent Prog

namespace RecoveryWorker

/-! ## Nothing left to select

The five selections are the filters of the five queries. That they select nothing is said of the
store, without the limit of the queries. -/

/-- No row satisfies any of the five selections. -/
structure Quiet (cfg : Config) (now : Time) (σ : Store) : Prop where
  agentLeases : ∀ a g, σ.agents.get? a = some g → ¬ AgentRepo.leaseExpired now g
  borrowerLeases : ∀ b g, σ.borrowers.get? b = some g → ¬ BorrowerRepo.leaseExpired now g
  orphans : ∀ c d, σ.calls.get? c = some d → ¬ CallRepo.stale (staleCutoff cfg now) d
  silent : ∀ a g, σ.agents.get? a = some g →
    ¬ AgentRepo.heartbeatExpired (heartbeatCutoff cfg now) g
  wrapUps : ∀ a g, σ.agents.get? a = some g →
    ¬ AgentRepo.wrapUpExpired (wrapUpCutoff cfg now) none g

variable {cfg : Config} {now : Time} {σ₀ σ : Store}

/-! ### Sweeping makes no new work -/

/-- An expired lease after some sweeping is one from before: leases are not written, only
cleared. -/
theorem Swept.leaseExpired (h : Swept cfg now σ₀ σ) {a : DocId} {g : Agent}
    (hg : σ.agents.get? a = some g) (hexpired : AgentRepo.leaseExpired now g) :
    σ₀.agents.get? a = some g := by
  obtain ⟨g₀, hg₀, hswept⟩ := rel_right (h.agents a) hg
  obtain rfl := hswept.eq_of_source hexpired.1
  exact hg₀

theorem Swept.borrowerLeaseExpired (h : Swept cfg now σ₀ σ) {b : DocId} {g : Borrower}
    (hg : σ.borrowers.get? b = some g) (hexpired : BorrowerRepo.leaseExpired now g) :
    σ₀.borrowers.get? b = some g := by
  obtain ⟨g₀, hg₀, hswept⟩ := rel_right (h.borrowers b) hg
  obtain rfl := hswept.eq_of_held (decide_eq_true hexpired.1)
  exact hg₀

theorem Swept.stale (h : Swept cfg now σ₀ σ) {c : DocId} {d : Call} {cutoff : Time}
    (hd : σ.calls.get? c = some d) (hstale : CallRepo.stale cutoff d) :
    σ₀.calls.get? c = some d := by
  obtain ⟨d₀, hd₀, hswept⟩ := rel_right (h.calls c) hd
  obtain rfl := hswept.eq_of_open hstale.1
  exact hd₀

/-- A silent agent who is not logged out was not logged out before. -/
theorem Swept.heartbeatExpired (h : Swept cfg now σ₀ σ) {a : DocId} {g : Agent} {cutoff : Time}
    (hg : σ.agents.get? a = some g) (hexpired : AgentRepo.heartbeatExpired cutoff g) :
    ∃ g₀, σ₀.agents.get? a = some g₀ ∧ AgentRepo.heartbeatExpired cutoff g₀ := by
  obtain ⟨g₀, hg₀, hswept⟩ := rel_right (h.agents a) hg
  obtain ⟨hstate, hsilent⟩ := hexpired
  rw [hswept.heartbeat] at hsilent
  refine ⟨g₀, hg₀, ?_, hsilent⟩
  rcases hswept.fate with rfl | ⟨hoff, -⟩ | ⟨-, hfree⟩
  · exact hstate
  · exact absurd hoff hstate
  · exact hfree.ne_offline

theorem Swept.wrapUpExpired (h : Swept cfg now σ₀ σ) {a : DocId} {g : Agent} {cutoff : Time}
    (hg : σ.agents.get? a = some g) (hexpired : AgentRepo.wrapUpExpired cutoff none g) :
    σ₀.agents.get? a = some g := by
  obtain ⟨g₀, hg₀, hswept⟩ := rel_right (h.agents a) hg
  have hsource : g.state ∈ AgentSm.allowedSources .AVAILABLE .RECOVERY := by
    rw [hexpired.1]
    decide
  obtain rfl := hswept.eq_of_source hsource
  exact hg₀

/-! ### A second pass -/

/-- A query that answers nothing, and a loop that then has nothing to do. -/
theorem maintains_nothing {ok : Op → Env → Prop} {E : Exn → Prop} {o : Op} {β : Type}
    {f : Res o → Py β} (nothing : Res o) (hE : ∀ e, E e)
    (hstore : ∀ env σ, (apply env o σ).2 = σ)
    (hanswer : ∀ env, (apply env o σ).1 = .ok nothing) {b : β} (hf : f nothing = .ret b) :
    Maintains exec ok (· = σ) (call o >>= f) (fun _ => True) E := by
  refine Maintains.bind (Q := (· = nothing)) (Maintains.perform fun σ' env hσ' _ => ?_) fun a ha => ?_
  · subst hσ'
    refine ⟨?_, fun a ha => ?_, fun e _ => hE e⟩
    · rcases exec_store env o σ' with h | h
      · exact h
      · exact h.trans (hstore env σ')
    · rw [exec_of_ok ha, hanswer env] at ha
      exact (Except.ok.inj ha).symm
  · rw [ha, hf]
    exact Maintains.pure trivial

theorem Quiet.find_eq_nil {p : Agent → Prop} [DecidablePred p]
    (h : ∀ a g, σ.agents.get? a = some g → ¬ p g) : σ.agents.find p = [] :=
  List.eq_nil_iff_forall_not_mem.mpr fun g hg =>
    h _ g (Collection.mem_find.mp hg).1 (Collection.mem_find.mp hg).2

theorem limited_nil {D : Type} (limit : Int) : limited limit ([] : List D) = [] := by
  unfold limited
  split <;> simp

/-- **Where nothing is selected a pass does nothing**, even if operations fail. Every sweep then
loops over an empty list, so it performs one query and no write. -/
theorem Quiet.afterSweeps_eq {envs : Nat → Env} (h : Quiet cfg (envs 0).now σ) :
    afterSweeps cfg envs σ = σ := by
  -- each query answers the empty list
  have hsweeps : ∀ p ∈ sweeps cfg (envs 0).now cfg.settings.RECOVERY_SWEEP_LIMIT,
      Maintains exec (fun _ _ => True) (· = σ) p.2 (fun _ => True) fun _ => True := by
    intro p hp
    simp only [sweeps, List.mem_cons, List.not_mem_nil, or_false] at hp
    rcases hp with rfl | rfl | rfl | rfl | rfl
    · refine maintains_nothing [] (fun _ => trivial) (fun _ _ => rfl) (fun env => ?_) rfl
      simp only [apply, AgentRepo.findExpiredAgentLeases, Quiet.find_eq_nil h.agentLeases, limited_nil]
    · refine maintains_nothing [] (fun _ => trivial) (fun _ _ => rfl) (fun env => ?_) rfl
      have hnil : σ.borrowers.find (BorrowerRepo.leaseExpired (envs 0).now) = [] :=
        List.eq_nil_iff_forall_not_mem.mpr fun g hg =>
          h.borrowerLeases _ g (Collection.mem_find.mp hg).1 (Collection.mem_find.mp hg).2
      simp only [apply, BorrowerRepo.findExpiredBorrowerLeases, hnil, limited_nil]
    · refine maintains_nothing [] (fun _ => trivial) (fun _ _ => rfl) (fun env => ?_) rfl
      have hnil : σ.calls.coll.find (CallRepo.stale (staleCutoff cfg (envs 0).now)) = [] :=
        List.eq_nil_iff_forall_not_mem.mpr fun d hd =>
          h.orphans _ d (Collection.mem_find.mp hd).1 (Collection.mem_find.mp hd).2
      unfold staleCutoff at hnil
      simp only [apply, CallRepo.findStaleCalls, hnil, List.insertionSort_nil, limited_nil, List.map_nil]
    · refine maintains_nothing [] (fun _ => trivial) (fun _ _ => rfl) (fun env => ?_) rfl
      have hnil := Quiet.find_eq_nil h.silent
      unfold heartbeatCutoff at hnil
      simp only [apply, AgentRepo.findHeartbeatExpired, hnil, limited_nil]
    · refine maintains_nothing [] (fun _ => trivial) (fun _ _ => rfl) (fun env => ?_) rfl
      have hnil := Quiet.find_eq_nil h.wrapUps
      unfold wrapUpCutoff at hnil
      simp only [apply, AgentRepo.findExpiredWrapUps, hnil, List.insertionSort_nil, limited_nil]
  -- and a pass over sweeps that change nothing changes nothing
  have hloop : ∀ (l : List (SweepName × Py Nat)) (counts : RecoverySweepCounts),
      (∀ p ∈ l, Maintains exec (fun _ _ => True) (· = σ) p.2 (fun _ => True) fun _ => True) →
      Maintains exec (fun _ _ => True) (· = σ) (runSweepsLoop l counts) (fun _ => True) fun _ => True := by
    intro l
    induction l with
    | nil => exact fun counts _ => Maintains.pure trivial
    | cons p l ih =>
      intro counts hl
      refine Maintains.bind (Q := fun _ => True) (Maintains.catching (Maintains.bind
        (hl p List.mem_cons_self) fun n _ => Maintains.pure trivial) fun e _ => ?_) fun counts _ =>
          ih counts fun p hp => hl p (List.mem_cons_of_mem _ hp)
      split
      · exact Maintains.pure trivial
      · exact Maintains.raise trivial
  rw [RecoveryWorker.afterSweeps_eq]
  exact (run_of_wp (hloop _ {} hsweeps σ rfl) (fun _ _ => trivial) 1).1

/-! ### One sweep -/

section OneSweep

variable {F G H : Store → Prop} {α β : Type}

/-- A part that performs only operations which keep `F`. -/
theorem Stays.keeping {S : Op → Prop} {x : Py α} {Q : α → Prop}
    (hx : Stays FailureFree (fun _ => False) cfg now σ₀ x Q) (hperforms : x.Performs S)
    (hF : ∀ {σ o} env, S o → F σ → F (exec env o σ).2) : Reaches cfg now σ₀ F x F := by
  intro σ hσ
  have hkeeps : ∀ {γ : Type} (y : Py γ) (σ : Store), y.Performs S → F σ →
      y.wp exec FailureFree (fun _ σ' => F σ') σ := by
    intro γ y
    induction y with
    | ret a => exact fun σ _ h => h
    | raise e => exact fun σ _ h => h
    | op o k ih => exact fun σ hy h env _ => ih _ _ (hy.2 _) (hF env hy.1 h)
  refine wp_mono (wp_and ((hx _ stable_true).achieves σ ⟨hσ.1, trivial⟩) (hkeeps x σ hperforms hσ.2)) ?_
  rintro r σ' ⟨⟨a, rfl, -, hswept, -⟩, hF'⟩
  exact ⟨a, rfl, hswept, hF'⟩

theorem Reaches.bind {x : Py α} {f : α → Py β} (hx : Reaches cfg now σ₀ F x G)
    (hf : ∀ a, Reaches cfg now σ₀ G (f a) H) : Reaches cfg now σ₀ F (x >>= f) H :=
  Achieves.bind hx fun a => hf a

/-- The operations of the fourth sweep. -/
def LogsOut : Op → Prop
  | .findHeartbeatExpired .. | .findCallById _ | .transitionCall .. | .releaseBorrower .. => True
  | .transitionAgent _ _ t _ _ => t = .OFFLINE
  | _ => False

theorem logsOut_cancelBoundCall (agent : Agent) (reason : String) :
    (cancelBoundCall cfg agent reason).Performs LogsOut := by
  unfold cancelBoundCall
  split
  · exact trivial
  · refine .bind (performs_perform.mpr trivial) fun bound => ?_
    split
    · exact trivial
    · split
      · exact trivial
      · refine .bind (performs_perform.mpr trivial) fun cancelled => ?_
        split
        · exact trivial
        · exact .bind (performs_perform.mpr trivial) fun _ => trivial

theorem logsOut_transitionAgent {a : DocId} {s : AgentState} {v : Nat} :
    (transitionAgent a s .OFFLINE .RECOVERY v).Performs LogsOut := by
  unfold transitionAgent validateTransition
  refine .bind ?_ fun _ => performs_perform.mpr rfl
  split
  · exact trivial
  · split <;> trivial

theorem logsOut_sweepHeartbeatTimeoutsLoop (agents : List Agent) (n : Nat) :
    (sweepHeartbeatTimeoutsLoop cfg agents n).Performs LogsOut := by
  induction agents generalizing n with
  | nil => exact trivial
  | cons agent agents ih =>
    exact .bind (logsOut_cancelBoundCall agent _) fun _ => .bind logsOut_transitionAgent fun _ => ih _

/-- The agent is logged out, if there is one. -/
def AgentOffline (a : DocId) (σ : Store) : Prop :=
  ∀ g, σ.agents.get? a = some g → g.state = .OFFLINE

/-- An operation of the fourth sweep leaves an agent as he is or logs him out. -/
theorem logsOut_agent {o : Op} {env : Env} {a : DocId} {g' : Agent} (ho : LogsOut o)
    (hg' : (exec env o σ).2.agents.get? a = some g') :
    σ.agents.get? a = some g' ∨ g'.state = .OFFLINE := by
  obtain ⟨g, hg, hwrite⟩ := exec_agent_before hg'
  cases hwrite with
  | unchanged => exact Or.inl hg
  | reserve | release | bind | reclaim | beat => exact ho.elim
  | transition => exact Or.inr ho

theorem keeps_agentOffline (a : DocId) {o : Op} (env : Env) (ho : LogsOut o) (h : AgentOffline a σ) :
    AgentOffline a (exec env o σ).2 := by
  intro g' hg'
  rcases logsOut_agent ho hg' with hg | hoff
  · exact h g' hg
  · exact hoff

/-- An agent who has not been touched yet is still the candidate. -/
def Untouched (g₀ : Agent) (σ : Store) : Prop :=
  ∀ g, σ.agents.get? g₀.id = some g → g = g₀ ∨ g.state = .OFFLINE

theorem keeps_untouched (g₀ : Agent) {o : Op} (env : Env) (ho : LogsOut o) (h : Untouched g₀ σ) :
    Untouched g₀ (exec env o σ).2 := by
  intro g' hg'
  rcases logsOut_agent ho hg' with hg | hoff
  · exact h g' hg
  · exact Or.inr hoff

/-- **The fourth sweep logs its candidates out.** Cancelling the call of an earlier candidate may
have released his borrower, but it does not touch the agent. -/
theorem reaches_agentOffline {agents : List Agent} (h : SilentAgents cfg now σ₀ agents) {g₀ : Agent}
    (hmem : g₀ ∈ agents) (n : Nat) :
    Reaches cfg now σ₀ (Untouched g₀) (sweepHeartbeatTimeoutsLoop cfg agents n)
      (AgentOffline g₀.id) := by
  -- up to his turn in the list he is untouched, after it he stays offline
  induction agents generalizing n with
  | nil => cases hmem
  | cons g agents ih =>
    have hrest : SilentAgents cfg now σ₀ agents := fun g' hg' => h g' (List.mem_cons_of_mem _ hg')
    have hcancel : Reaches cfg now σ₀ (Untouched g₀) (cancelBoundCall cfg g "agent_disappeared")
        (Untouched g₀) :=
      (stays_cancelBoundCall escapes_failureFree h.mayEnd).keeping (logsOut_cancelBoundCall g _)
        (keeps_untouched g₀)
    have hlogout := stays_logout escapes_failureFree h
    refine hcancel.bind fun _ => ?_
    rcases List.mem_cons.mp hmem with rfl | hmem
    · refine Reaches.bind (G := AgentOffline g₀.id) ?_ fun _ =>
        (stays_sweepHeartbeatTimeoutsLoop escapes_failureFree hrest _).keeping
          (logsOut_sweepHeartbeatTimeoutsLoop _ _) (keeps_agentOffline g₀.id)
      obtain ⟨hstate, g₁, hg₁, hsilent, -⟩ := h g₀ List.mem_cons_self
      have hvalid := AgentSm.valid_offline hstate
      unfold transitionAgent validateTransition
      rw [hvalid.1, hvalid.2]
      refine reaches_call (Or.inl ⟨rfl, fun g' hg' => ?_⟩) nofun fun σ env hσ g' hg' => ?_
      · cases hg₁.symm.trans hg'
        exact hsilent
      · rcases Collection.findOneAndUpdate_cases σ.agents g₀.id
            (fun d => d.state = g₀.state ∧ d.stateVersion = g₀.stateVersion)
            (AgentRepo.transitionUpdate env.now g₀.state .OFFLINE) (fun _ => rfl)
          with ⟨d, -, -, -, hget, -⟩ | ⟨hno, -, hsame⟩
        · cases hget.symm.trans hg'
          rfl
        · have hg'σ : σ.agents.get? g₀.id = some g' := hsame ▸ hg'
          rcases hσ.2 g' hg'σ with rfl | hoff
          · exact absurd ⟨rfl, rfl⟩ (hno _ hg'σ)
          · exact hoff
    · exact (hlogout.keeping logsOut_transitionAgent (keeps_untouched g₀)).bind fun _ =>
        ih hrest hmem _

end OneSweep

/-! ### One pass -/

/-- The sweeps of the list one after another: the store they leave and the number of operations
performed by then. -/
def runEach (envs : Nat → Env) : List (SweepName × Py Nat) → Nat → Store → Store × Nat
  | [], n, σ => (σ, n)
  | (_, sweep) :: rest, n, σ =>
    runEach envs rest (sweep.run exec envs n σ).2.2 (sweep.run exec envs n σ).2.1

theorem runEach_append (envs : Nat → Env) (l l' : List (SweepName × Py Nat)) (n : Nat) (σ : Store) :
    runEach envs (l ++ l') n σ = runEach envs l' (runEach envs l n σ).2 (runEach envs l n σ).1 := by
  induction l generalizing n σ with
  | nil => rfl
  | cons p l ih => exact ih _ _

/-- The store in which sweep number `i` of a pass begins. -/
def sweepBegins (cfg : Config) (envs : Nat → Env) (σ : Store) (i : Nat) : Store :=
  (runEach envs ((sweeps cfg (envs 0).now cfg.settings.RECOVERY_SWEEP_LIMIT).take i) 1 σ).1

/-- The limit of the settings drops nothing of a query's answer. -/
def Fits (cfg : Config) {D : Type} (candidates : List D) : Prop :=
  cfg.settings.RECOVERY_SWEEP_LIMIT = 0
    ∨ candidates.length ≤ cfg.settings.RECOVERY_SWEEP_LIMIT.natAbs

/-- Each sweep's candidate set, as it is when the sweep begins, fits the limit. -/
structure CandidatesFit (cfg : Config) (envs : Nat → Env) (σ : Store) : Prop where
  agentLeases : Fits cfg ((sweepBegins cfg envs σ 0).agents.find
    (AgentRepo.leaseExpired (envs 0).now))
  borrowerLeases : Fits cfg ((sweepBegins cfg envs σ 1).borrowers.find
    (BorrowerRepo.leaseExpired (envs 0).now))
  orphans : Fits cfg ((sweepBegins cfg envs σ 2).calls.coll.find
    (CallRepo.stale (staleCutoff cfg (envs 0).now)))
  silent : Fits cfg ((sweepBegins cfg envs σ 3).agents.find
    (AgentRepo.heartbeatExpired (heartbeatCutoff cfg (envs 0).now)))
  wrapUps : Fits cfg ((sweepBegins cfg envs σ 4).agents.find
    (AgentRepo.wrapUpExpired (wrapUpCutoff cfg (envs 0).now) none))

/-- The candidates of the two lease sweeps fit the limit; what the other three sweeps select may be
as long as it likes. The agents' leases are the first sweep's, so the borrowers' are counted in the
store which that sweep leaves. -/
structure LeasesFit (cfg : Config) (envs : Nat → Env) (σ : Store) : Prop where
  agentLeases : Fits cfg ((sweepBegins cfg envs σ 0).agents.find
    (AgentRepo.leaseExpired (envs 0).now))
  borrowerLeases : Fits cfg ((sweepBegins cfg envs σ 1).borrowers.find
    (BorrowerRepo.leaseExpired (envs 0).now))

theorem Fits.limited_eq {D : Type} {l : List D} (h : Fits cfg l) :
    limited cfg.settings.RECOVERY_SWEEP_LIMIT l = l := by
  unfold limited
  split
  · rfl
  · next hlimit => exact List.take_of_length_le (h.resolve_left hlimit)

section OnePass

variable {envs : Nat → Env} {G : Store → Prop}

theorem CandidatesFit.leases (h : CandidatesFit cfg envs σ) : LeasesFit cfg envs σ :=
  ⟨h.agentLeases, h.borrowerLeases⟩

/-- A sweep of a store: the query answers its candidates, the loop deals with each of them. -/
theorem reaches_candidates {o : Op} {β : Type} {f : Res o → Py β} (candidates : Res o)
    (hsanctioned : Sanctioned cfg now σ o) (hprovider : ∀ n p, o ≠ .getCallStatus n p)
    (hstore : ∀ env, (apply env o σ).2 = σ) (hanswer : ∀ env, (apply env o σ).1 = .ok candidates)
    (hloop : Reaches cfg now σ (· = σ) (f candidates) G) :
    Reaches cfg now σ (· = σ) (call o >>= f) G := by
  refine Achieves.bind (Q := fun a σ' => a = candidates ∧ σ' = σ)
    (Achieves.perform fun σ' env hσ' henv => ?_) fun a σ' h => ?_
  · obtain ⟨-, rfl⟩ := hσ'
    cases hr : (exec env o σ').1 with
    | error e =>
      rcases escapes_failureFree.sanctioned henv hsanctioned hr with ⟨⟨n, p, ho⟩, -⟩ | h
      · exact absurd ho (hprovider n p)
      · exact h.elim
    | ok a =>
      have hexec := exec_of_ok hr
      rw [hexec] at hr ⊢
      exact ⟨a, rfl, Except.ok.inj (hr.symm.trans (hanswer env)), hstore env⟩
  · obtain ⟨rfl, rfl⟩ := h
    exact hloop σ' ⟨.refl σ', rfl⟩

/-- What a sweep reaches from `σ` holds after it has run. -/
theorem Reaches.run {x : Py Nat} (h : Reaches cfg now σ (· = σ) x G)
    (henvs : ∀ n, ∀ f ∈ (envs n).fault, f.exn.isProviderError = true) (n : Nat) :
    G (x.run exec envs n σ).2.1 := by
  obtain ⟨a, -, -, hG⟩ := run_of_wp (h σ ⟨.refl σ, rfl⟩) (fun _ n => henvs n) n
  exact hG

theorem Reaches.fromStart {x : Py Nat} (h : Reaches cfg now σ (fun _ => True) x G) :
    Reaches cfg now σ (· = σ) x G :=
  Achieves.conseq h (fun _ hσ => ⟨hσ.1, trivial⟩) fun _ _ h => h

/-- A sweep that fails nowhere ends with its count. -/
theorem sweep_ok {p : SweepName × Py Nat}
    (hp : p ∈ sweeps cfg now cfg.settings.RECOVERY_SWEEP_LIMIT)
    (henvs : ∀ n, ∀ f ∈ (envs n).fault, f.exn.isProviderError = true) (n : Nat) (σ : Store) :
    (∃ a, (p.2.run exec envs n σ).1 = .ok a) ∧ Swept cfg now σ (p.2.run exec envs n σ).2.1 := by
  have hstays : Stays FailureFree (fun _ => False) cfg now σ p.2 fun _ => True :=
    stays_sweeps escapes_failureFree _ p hp
  obtain ⟨a, ha, -, hswept, -⟩ := run_of_wp ((hstays _ stable_true).achieves σ ⟨.refl σ, trivial⟩)
    (fun _ n => henvs n) n
  exact ⟨⟨a, ha⟩, hswept⟩

/-- The loop over the sweeps runs them one after another. -/
theorem run_runSweepsLoop (henvs : ∀ n, ∀ f ∈ (envs n).fault, f.exn.isProviderError = true)
    (l : List (SweepName × Py Nat)) (counts : RecoverySweepCounts) (n : Nat) (σ : Store)
    (hl : ∀ p ∈ l, p ∈ sweeps cfg now cfg.settings.RECOVERY_SWEEP_LIMIT) :
    ((runSweepsLoop l counts).run exec envs n σ).2.1 = (runEach envs l n σ).1 := by
  induction l generalizing counts n σ with
  | nil => rfl
  | cons p l ih =>
    obtain ⟨name, sweep⟩ := p
    obtain ⟨⟨a, ha⟩, -⟩ := sweep_ok (hl _ List.mem_cons_self) henvs n σ
    have hrun : sweep.run exec envs n σ
        = (.ok a, (sweep.run exec envs n σ).2.1, (sweep.run exec envs n σ).2.2) := by
      rw [← ha]
    unfold runSweepsLoop
    rw [bind_def, run_bind, run_catching, bind_def, run_bind, hrun]
    exact ih _ _ _ fun p hp => hl p (List.mem_cons_of_mem _ hp)

/-- What every sweep keeps holds after any number of them. -/
theorem runEach_kept {P : Store → Prop} (l : List (SweepName × Py Nat))
    (hP : ∀ p ∈ l, ∀ n σ, P σ → P (p.2.run exec envs n σ).2.1) (n : Nat) (σ : Store) (h : P σ) :
    P (runEach envs l n σ).1 := by
  induction l generalizing n σ with
  | nil => exact h
  | cons p l ih =>
    exact ih (fun p hp => hP p (List.mem_cons_of_mem _ hp)) _ _ (hP p List.mem_cons_self n σ h)

/-- No sweep spoils what no sanctioned operation spoils. -/
theorem Stable.sweep {P : Store → Prop} (hP : ∀ σ₀, Stable cfg now σ₀ P)
    (henvs : ∀ n, ∀ f ∈ (envs n).fault, f.exn.isProviderError = true) :
    ∀ p ∈ sweeps cfg now cfg.settings.RECOVERY_SWEEP_LIMIT, ∀ n σ, P σ →
      P (p.2.run exec envs n σ).2.1 := by
  intro p hp n σ h
  have hstays : Stays FailureFree (fun _ => False) cfg now σ p.2 fun _ => True :=
    stays_sweeps escapes_failureFree _ p hp
  obtain ⟨a, -, -, -, hafter⟩ := run_of_wp ((hstays _ (hP σ)).achieves σ ⟨.refl σ, h⟩)
    (fun _ n => henvs n) n
  exact hafter

/-- What sweep number `i` establishes and no sweep spoils holds after the pass. -/
theorem afterSweeps_of_sweep {P : Store → Prop} (i : Nat) {p : SweepName × Py Nat}
    (hp : (sweeps cfg (envs 0).now cfg.settings.RECOVERY_SWEEP_LIMIT)[i]? = some p)
    (henvs : ∀ n, ∀ f ∈ (envs n).fault, f.exn.isProviderError = true)
    (hsweep : ∀ n, P (p.2.run exec envs n (sweepBegins cfg envs σ i)).2.1)
    (hP : ∀ σ σ', P σ → Swept cfg (envs 0).now σ σ' → P σ') : P (afterSweeps cfg envs σ) := by
  rw [afterSweeps_eq, run_runSweepsLoop henvs _ {} 1 σ fun _ hp => hp]
  unfold sweepBegins at hsweep
  generalize hl : sweeps cfg (envs 0).now cfg.settings.RECOVERY_SWEEP_LIMIT = l at hp hsweep
  have hsplit : l = l.take i ++ p :: l.drop (i + 1) := by
    obtain ⟨hi, rfl⟩ := List.getElem?_eq_some_iff.mp hp
    rw [← List.drop_eq_getElem_cons hi, List.take_append_drop]
  have hrun : (runEach envs l 1 σ).1 = (runEach envs (l.drop (i + 1))
      (p.2.run exec envs (runEach envs (l.take i) 1 σ).2 (runEach envs (l.take i) 1 σ).1).2.2
      (p.2.run exec envs (runEach envs (l.take i) 1 σ).2 (runEach envs (l.take i) 1 σ).1).2.1).1 := by
    conv_lhs => rw [hsplit, runEach_append]
    rfl
  rw [hrun]
  refine runEach_kept _ (fun q hq n σ h => hP _ _ h ?_) _ _ (hsweep _)
  exact (sweep_ok (hl ▸ List.mem_of_mem_drop hq) henvs n σ).2

/-! ### What each sweep leaves -/

theorem swept_sweep {sweep : Py Nat}
    (hmem : sweep ∈ (sweeps cfg now cfg.settings.RECOVERY_SWEEP_LIMIT).map Prod.snd)
    (henvs : ∀ n, ∀ f ∈ (envs n).fault, f.exn.isProviderError = true) (n : Nat) (σ : Store) :
    Swept cfg now σ (sweep.run exec envs n σ).2.1 := by
  obtain ⟨p, hp, rfl⟩ := List.mem_map.mp hmem
  exact (sweep_ok hp henvs n σ).2

theorem Fits.mem_findExpiredAgentLeases {g : Agent}
    (hfit : Fits cfg (σ.agents.find (AgentRepo.leaseExpired now)))
    (hg : σ.agents.get? g.id = some g) (hexpired : AgentRepo.leaseExpired now g) :
    g ∈ AgentRepo.findExpiredAgentLeases now cfg.settings.RECOVERY_SWEEP_LIMIT σ.agents := by
  unfold AgentRepo.findExpiredAgentLeases
  rw [hfit.limited_eq]
  exact Collection.mem_find.mpr ⟨hg, hexpired⟩

/-- The first sweep leaves no expired lease of an agent. -/
theorem agentLeases_done (henvs : ∀ n, ∀ f ∈ (envs n).fault, f.exn.isProviderError = true)
    (hfit : Fits cfg (σ.agents.find (AgentRepo.leaseExpired now))) (n : Nat) :
    ∀ a g, ((sweepExpiredAgentLeases cfg now cfg.settings.RECOVERY_SWEEP_LIMIT).run exec envs n
      σ).2.1.agents.get? a = some g → ¬ AgentRepo.leaseExpired now g := by
  -- an agent who is due afterwards was due before, so he was a candidate and has been freed
  intro a g hg hexpired
  have hswept : Swept cfg now σ ((sweepExpiredAgentLeases cfg now
      cfg.settings.RECOVERY_SWEEP_LIMIT).run exec envs n σ).2.1 :=
    swept_sweep (by simp [sweeps]) henvs n σ
  have hbefore := hswept.leaseExpired hg hexpired
  obtain rfl : g.id = a := Collection.key_of_get? hg
  have hmem := hfit.mem_findExpiredAgentLeases hbefore hexpired
  have hidle : Reaches cfg now σ (· = σ)
      (sweepExpiredAgentLeases cfg now cfg.settings.RECOVERY_SWEEP_LIMIT) (AgentIdle g.id) :=
    reaches_candidates (AgentRepo.findExpiredAgentLeases now cfg.settings.RECOVERY_SWEEP_LIMIT
      σ.agents) trivial nofun (fun _ => rfl) (fun _ => rfl)
      (reaches_sweepExpiredAgentLeasesLoop (expiredAgents_find (@Swept.refl cfg now σ) _) hmem 0).fromStart
  have hsource := hexpired.1
  rcases hidle.run henvs n g hg with h | h
  · rw [h] at hsource
    exact absurd hsource (by decide)
  · rw [h] at hsource
    exact absurd hsource (by decide)

theorem boundCall_done (hsound : CallsSound σ.calls)
    (henvs : ∀ n, ∀ f ∈ (envs n).fault, f.exn.isProviderError = true)
    (hfit : Fits cfg (σ.agents.find (AgentRepo.leaseExpired now))) {g : Agent} {c : DocId}
    (hg : σ.agents.get? g.id = some g) (hexpired : AgentRepo.leaseExpired now g)
    (hbound : g.currentCallId = some c) (n : Nat) :
    CallEnded c ((sweepExpiredAgentLeases cfg now cfg.settings.RECOVERY_SWEEP_LIMIT).run exec envs n
      σ).2.1 := by
  have hmem := hfit.mem_findExpiredAgentLeases hg hexpired
  have hended : Reaches cfg now σ (· = σ)
      (sweepExpiredAgentLeases cfg now cfg.settings.RECOVERY_SWEEP_LIMIT) (CallEnded c) :=
    reaches_candidates (AgentRepo.findExpiredAgentLeases now cfg.settings.RECOVERY_SWEEP_LIMIT
      σ.agents) trivial nofun (fun _ => rfl) (fun _ => rfl)
      (reaches_boundCall hsound (expiredAgents_find (@Swept.refl cfg now σ) _) hmem hbound 0).fromStart
  exact hended.run henvs n

/-- The second sweep leaves no expired lease of a borrower. -/
theorem borrowerLeases_done (henvs : ∀ n, ∀ f ∈ (envs n).fault, f.exn.isProviderError = true)
    (hfit : Fits cfg (σ.borrowers.find (BorrowerRepo.leaseExpired now))) (n : Nat) :
    ∀ b g, ((sweepExpiredBorrowerLeases now cfg.settings.RECOVERY_SWEEP_LIMIT).run exec envs n
      σ).2.1.borrowers.get? b = some g → ¬ BorrowerRepo.leaseExpired now g := by
  intro b g hg hexpired
  have hswept : Swept cfg now σ ((sweepExpiredBorrowerLeases now
      cfg.settings.RECOVERY_SWEEP_LIMIT).run exec envs n σ).2.1 :=
    swept_sweep (by simp [sweeps]) henvs n σ
  have hbefore := hswept.borrowerLeaseExpired hg hexpired
  obtain rfl : g.id = b := Collection.key_of_get? hg
  have hmem : g ∈ BorrowerRepo.findExpiredBorrowerLeases now cfg.settings.RECOVERY_SWEEP_LIMIT
      σ.borrowers := by
    unfold BorrowerRepo.findExpiredBorrowerLeases
    rw [hfit.limited_eq]
    exact Collection.mem_find.mpr ⟨hbefore, hexpired⟩
  have hgone : Reaches cfg now σ (· = σ)
      (sweepExpiredBorrowerLeases now cfg.settings.RECOVERY_SWEEP_LIMIT) (BorrowerLetGo g.id) :=
    reaches_candidates (BorrowerRepo.findExpiredBorrowerLeases now
      cfg.settings.RECOVERY_SWEEP_LIMIT σ.borrowers) trivial nofun (fun _ => rfl) (fun _ => rfl)
      (reaches_reclaimLoop (expiredBorrowers_find (@Swept.refl cfg now σ) _) hmem hbefore hexpired 0).fromStart
  have hheld : g.status.held = true := decide_eq_true hexpired.1
  exact absurd (hheld.symm.trans (hgone.run henvs n g hg)) nofun

/-- The third sweep leaves no orphan. A call that is stale afterwards was a candidate, as staleness
cannot arise during the sweep; and candidates are ended. -/
theorem orphans_done (hranked : CallsRanked σ.calls)
    (henvs : ∀ n, ∀ f ∈ (envs n).fault, f.exn.isProviderError = true)
    (hfit : Fits cfg (σ.calls.coll.find (CallRepo.stale (staleCutoff cfg now)))) (n : Nat) :
    ∀ c d, ((sweepOrphanedCalls cfg now cfg.settings.RECOVERY_SWEEP_LIMIT).run exec envs n
      σ).2.1.calls.get? c = some d → ¬ CallRepo.stale (staleCutoff cfg now) d := by
  intro c d hd hstale
  have hswept : Swept cfg now σ ((sweepOrphanedCalls cfg now
      cfg.settings.RECOVERY_SWEEP_LIMIT).run exec envs n σ).2.1 :=
    swept_sweep (by simp [sweeps]) henvs n σ
  have hbefore := hswept.stale hd hstale
  obtain rfl := Calls.id_of_get? hd
  have hmem : d.fromMongo ∈ CallRepo.findStaleCalls (staleCutoff cfg now)
      cfg.settings.RECOVERY_SWEEP_LIMIT σ.calls := by
    refine List.mem_map_of_mem ?_
    have hfit' : Fits cfg ((σ.calls.coll.find (CallRepo.stale (staleCutoff cfg now))).insertionSort
        fun a b => a.updatedAt ≤ b.updatedAt) := by
      unfold Fits at hfit ⊢
      rwa [List.length_insertionSort]
    rw [hfit'.limited_eq, List.mem_insertionSort]
    exact Collection.mem_find.mpr ⟨hbefore, hstale⟩
  -- a candidate is ended by the sweep, and nothing that comes after opens it again
  have hended : Reaches cfg now σ (· = σ)
      (sweepOrphanedCalls cfg now cfg.settings.RECOVERY_SWEEP_LIMIT) (CallEnded d.fromMongo.id) :=
    reaches_candidates (CallRepo.findStaleCalls (staleCutoff cfg now)
      cfg.settings.RECOVERY_SWEEP_LIMIT σ.calls) trivial nofun (fun _ => rfl) (fun _ => rfl)
      (reaches_sweepOrphanedCallsLoop hranked (staleCalls_find (.refl σ) _) hmem 0).fromStart
  exact absurd (hstale.1.symm.trans (hended.run henvs n d hd)) nofun

/-- The fourth sweep leaves no silent agent logged in. An agent that is silent afterwards was a
candidate, as no sweep writes a heartbeat. -/
theorem silent_done (henvs : ∀ n, ∀ f ∈ (envs n).fault, f.exn.isProviderError = true)
    (hfit : Fits cfg (σ.agents.find (AgentRepo.heartbeatExpired (heartbeatCutoff cfg now))))
    (n : Nat) :
    ∀ a g, ((sweepHeartbeatTimeouts cfg now cfg.settings.RECOVERY_SWEEP_LIMIT).run exec envs n
      σ).2.1.agents.get? a = some g →
      ¬ AgentRepo.heartbeatExpired (heartbeatCutoff cfg now) g := by
  intro a g hg hexpired
  have hswept : Swept cfg now σ ((sweepHeartbeatTimeouts cfg now
      cfg.settings.RECOVERY_SWEEP_LIMIT).run exec envs n σ).2.1 :=
    swept_sweep (by simp [sweeps]) henvs n σ
  obtain ⟨g₀, hbefore, hexpired₀⟩ := hswept.heartbeatExpired hg hexpired
  obtain rfl : g₀.id = a := Collection.key_of_get? hbefore
  have hmem : g₀ ∈ AgentRepo.findHeartbeatExpired (heartbeatCutoff cfg now)
      cfg.settings.RECOVERY_SWEEP_LIMIT σ.agents := by
    unfold AgentRepo.findHeartbeatExpired
    rw [hfit.limited_eq]
    exact Collection.mem_find.mpr ⟨hbefore, hexpired₀⟩
  -- the sweep starts from the store it has read the candidates in
  have huntouched : ∀ σ', During cfg now σ (· = σ) σ' → During cfg now σ (Untouched g₀) σ' := by
    rintro σ' ⟨hσ', rfl⟩
    exact ⟨hσ', fun g hg => Or.inl (Option.some.inj (hg.symm.trans hbefore))⟩
  have hoff : Reaches cfg now σ (· = σ)
      (sweepHeartbeatTimeouts cfg now cfg.settings.RECOVERY_SWEEP_LIMIT) (AgentOffline g₀.id) :=
    reaches_candidates (AgentRepo.findHeartbeatExpired (heartbeatCutoff cfg now)
      cfg.settings.RECOVERY_SWEEP_LIMIT σ.agents) trivial nofun (fun _ => rfl) (fun _ => rfl)
      (Achieves.conseq (reaches_agentOffline (silentAgents_find (.refl σ) _) hmem 0) huntouched
        fun _ _ h => h)
  exact hexpired.1 (hoff.run henvs n g hg)

/-- The fifth sweep leaves no stuck wrap-up. An agent that is overdue afterwards was a candidate, as
no sweep takes an agent into `WRAP_UP`. -/
theorem wrapUps_done (henvs : ∀ n, ∀ f ∈ (envs n).fault, f.exn.isProviderError = true)
    (hfit : Fits cfg (σ.agents.find (AgentRepo.wrapUpExpired (wrapUpCutoff cfg now) none)))
    (n : Nat) :
    ∀ a g, ((sweepStuckWrapUps cfg now cfg.settings.RECOVERY_SWEEP_LIMIT).run exec envs n
      σ).2.1.agents.get? a = some g →
      ¬ AgentRepo.wrapUpExpired (wrapUpCutoff cfg now) none g := by
  intro a g hg hexpired
  have hswept : Swept cfg now σ ((sweepStuckWrapUps cfg now
      cfg.settings.RECOVERY_SWEEP_LIMIT).run exec envs n σ).2.1 :=
    swept_sweep (by simp [sweeps]) henvs n σ
  have hbefore := hswept.wrapUpExpired hg hexpired
  obtain rfl : g.id = a := Collection.key_of_get? hg
  have hmem : g ∈ AgentRepo.findExpiredWrapUps (wrapUpCutoff cfg now)
      cfg.settings.RECOVERY_SWEEP_LIMIT none σ.agents := by
    unfold AgentRepo.findExpiredWrapUps
    have hfit' : Fits cfg ((σ.agents.find (AgentRepo.wrapUpExpired (wrapUpCutoff cfg now)
        none)).insertionSort fun a b => a.stateChangedAt ≤ b.stateChangedAt) := by
      unfold Fits at hfit ⊢
      rwa [List.length_insertionSort]
    rw [hfit'.limited_eq, List.mem_insertionSort]
    exact Collection.mem_find.mpr ⟨hbefore, hexpired⟩
  -- a candidate leaves `WRAP_UP`, here or by one of the other sweeps
  have hidle : Reaches cfg now σ (· = σ)
      (sweepStuckWrapUps cfg now cfg.settings.RECOVERY_SWEEP_LIMIT) (AgentIdle g.id) :=
    reaches_candidates (AgentRepo.findExpiredWrapUps (wrapUpCutoff cfg now)
      cfg.settings.RECOVERY_SWEEP_LIMIT none σ.agents) trivial nofun (fun _ => rfl) (fun _ => rfl)
      (reaches_sweepStuckWrapUpsLoop (stuckAgents_find (.refl σ) _) hmem 0).fromStart
  have hwrap := hexpired.1
  rcases hidle.run henvs n g hg with h | h
  · exact absurd (h.symm.trans hwrap) nofun
  · exact absurd (h.symm.trans hwrap) nofun

/-! ### The whole pass -/

theorem stable_callsRanked (σ₀ : Store) : Stable cfg now σ₀ fun σ => CallsRanked σ.calls := by
  intro σ o env _ _ hranked
  exact exec_ranked hranked

/-- No lease of an agent is over after a pass: the first sweep sees to it, and the other four make
nobody due. -/
theorem agentLeases_afterSweeps
    (henvs : ∀ n, ∀ f ∈ (envs n).fault, f.exn.isProviderError = true)
    (hfit : LeasesFit cfg envs σ) : ∀ a g, (afterSweeps cfg envs σ).agents.get? a = some g →
      ¬ AgentRepo.leaseExpired (envs 0).now g :=
  afterSweeps_of_sweep (P := fun σ => ∀ a g, σ.agents.get? a = some g →
      ¬ AgentRepo.leaseExpired (envs 0).now g) 0 rfl henvs
    (agentLeases_done henvs hfit.agentLeases) fun _ _ h hswept a g hg hexpired =>
      h a g (hswept.leaseExpired hg hexpired) hexpired

theorem borrowerLeases_afterSweeps
    (henvs : ∀ n, ∀ f ∈ (envs n).fault, f.exn.isProviderError = true)
    (hfit : LeasesFit cfg envs σ) : ∀ b g, (afterSweeps cfg envs σ).borrowers.get? b = some g →
      ¬ BorrowerRepo.leaseExpired (envs 0).now g :=
  afterSweeps_of_sweep (P := fun σ => ∀ b g, σ.borrowers.get? b = some g →
      ¬ BorrowerRepo.leaseExpired (envs 0).now g) 1 rfl henvs
    (borrowerLeases_done henvs hfit.borrowerLeases) fun _ _ h hswept b g hg hexpired =>
      h b g (hswept.borrowerLeaseExpired hg hexpired) hexpired

theorem boundCall_afterSweeps (hsound : CallsSound σ.calls)
    (henvs : ∀ n, ∀ f ∈ (envs n).fault, f.exn.isProviderError = true)
    (hfit : LeasesFit cfg envs σ) {g : Agent} {c : DocId} (hg : σ.agents.get? g.id = some g)
    (hexpired : AgentRepo.leaseExpired (envs 0).now g) (hbound : g.currentCallId = some c) :
    CallEnded c (afterSweeps cfg envs σ) := by
  refine afterSweeps_of_sweep (P := CallEnded c) 0 rfl henvs
    (boundCall_done hsound henvs hfit.agentLeases hg hexpired hbound) fun _ _ hended hswept d hd => ?_
  obtain ⟨d₀, hd₀, rfl | ⟨hterminal, -⟩⟩ := rel_right (hswept.calls c) hd
  · exact hended _ hd₀
  · exact hterminal

/-- After a whole pass nothing is selected. -/
theorem quiet_afterSweeps (hranked : CallsRanked σ.calls)
    (henvs : ∀ n, ∀ f ∈ (envs n).fault, f.exn.isProviderError = true)
    (hfit : CandidatesFit cfg envs σ) : Quiet cfg (envs 0).now (afterSweeps cfg envs σ) where
  agentLeases := agentLeases_afterSweeps henvs hfit.leases
  borrowerLeases := borrowerLeases_afterSweeps henvs hfit.leases
  orphans := by
    have hbegins : CallsRanked (sweepBegins cfg envs σ 2).calls :=
      runEach_kept _ (fun p hp => Stable.sweep stable_callsRanked henvs p (List.mem_of_mem_take hp))
        1 σ hranked
    exact afterSweeps_of_sweep (P := fun σ => ∀ c d, σ.calls.get? c = some d →
        ¬ CallRepo.stale (staleCutoff cfg (envs 0).now) d) 2 rfl henvs
      (orphans_done hbegins henvs hfit.orphans) fun _ _ h hswept c d hd hstale =>
        h c d (hswept.stale hd hstale) hstale
  silent := by
    refine afterSweeps_of_sweep (P := fun σ => ∀ a g, σ.agents.get? a = some g →
        ¬ AgentRepo.heartbeatExpired (heartbeatCutoff cfg (envs 0).now) g) 3 rfl henvs
      (silent_done henvs hfit.silent) fun _ _ h hswept a g hg hexpired => ?_
    obtain ⟨g₀, hg₀, hexpired₀⟩ := hswept.heartbeatExpired hg hexpired
    exact h a g₀ hg₀ hexpired₀
  wrapUps := afterSweeps_of_sweep (P := fun σ => ∀ a g, σ.agents.get? a = some g →
      ¬ AgentRepo.wrapUpExpired (wrapUpCutoff cfg (envs 0).now) none g) 4 rfl henvs
    (wrapUps_done henvs hfit.wrapUps) fun _ _ h hswept a g hg hexpired =>
      h a g (hswept.wrapUpExpired hg hexpired) hexpired

end OnePass

/-- **One pass of recovery is complete and idempotent.** If nothing fails but the provider and
each sweep's candidates fit the limit, no row satisfies any of the five selections afterwards,
and another pass at the same instant changes nothing. -/
theorem pass_complete {cfg : Config} {σ : Store} {envs : Nat → Env} (hranked : CallsRanked σ.calls)
    (henvs : ∀ n, ∀ f ∈ (envs n).fault, f.exn.isProviderError = true)
    (hfit : CandidatesFit cfg envs σ) :
    Quiet cfg (envs 0).now (afterSweeps cfg envs σ)
      ∧ ∀ envs' : Nat → Env, (envs' 0).now = (envs 0).now →
        afterSweeps cfg envs' (afterSweeps cfg envs σ) = afterSweeps cfg envs σ := by
  have hquiet := quiet_afterSweeps hranked henvs hfit
  exact ⟨hquiet, fun envs' hnow => Quiet.afterSweeps_eq (hnow ▸ hquiet)⟩

/-! The theorem half an hour after an allocator died over its call. -/

/-- Every time in the store is over by then. -/
def halfHourLater (_ : Nat) : Env := { now := 1800000 }

theorem attached_ranked : CallsRanked attached.store.calls := fun _ d hd =>
  have hranked : ∀ d ∈ attached.store.calls.coll.docs,
      d.stateRank = CallSm.rank d.state ∧ d.terminal = CallSm.isTerminal d.state := by
    decide +kernel
  ⟨(hranked d (Collection.mem_of_get? hd)).1, (hranked d (Collection.mem_of_get? hd)).2⟩

instance {cfg : Config} {D : Type} {candidates : List D} : Decidable (Fits cfg candidates) :=
  inferInstanceAs (Decidable (_ ∨ _))

theorem pass_complete_demo : Quiet {} 1800000 (afterSweeps {} halfHourLater attached.store)
    ∧ ((afterSweeps {} halfHourLater attached.store).agents.docs.map Agent.state
      = [AgentState.AVAILABLE])
    ∧ afterSweeps {} halfHourLater (afterSweeps {} halfHourLater attached.store)
      = afterSweeps {} halfHourLater attached.store := by
  have hfit : CandidatesFit {} halfHourLater attached.store := by constructor <;> decide +kernel
  have hcomplete := pass_complete attached_ranked (fun _ _ hf => by cases hf) hfit
  exact ⟨hcomplete.1, by decide +kernel, hcomplete.2 halfHourLater rfl⟩

end RecoveryWorker

end SmartDialer
