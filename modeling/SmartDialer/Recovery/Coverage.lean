import SmartDialer.Recovery.Sweeps

/-!
# What a run of the sweeps is sure to deal with

When nothing fails and the limit exceeds the number of rows, an agent with an expired lease ends
up idle and the call he is bound to ended, an expired borrower is let go, a stale call is ended and
a stuck wrap-up is over. Each of these is reached by one sweep and spoiled by none.

`Reaches` is the counterpart of `Stays`: a program succeeds, and afterwards a fact holds that did
not before. A row is reached by the sweep that has it among its candidates, at its turn in the loop;
before and after that the sweep, and all the other sweeps, only stay within the scope.

* `reaches_sweep…Loop`, `reaches_cancelBoundCall`: what a loop does for one of its candidates.
* `reaches_agentIdle` and the others below it: the row is among the candidates, since the limit
  suffices.
* `covered_afterSweeps`: all of them after a whole pass.
-/

namespace SmartDialer

open DocStore Concurrent Prog

namespace RecoveryWorker

/-- Nothing fails but the provider, and that with one of its own errors. -/
def FailureFree (_ : Op) (env : Env) : Prop := ∀ f ∈ env.fault, f.exn.isProviderError = true

/-- Without failures nothing escapes: the only operation that can raise asks the provider, and its
errors are caught. -/
theorem escapes_failureFree : Escapes FailureFree fun _ => False where
  sanctioned := fun {cfg now σ₀ o env σ e} hfree hsanctioned he => by
    refine Or.inl ?_
    rcases exec_cases env o σ with h | ⟨f, hf, hraises, h⟩
    · rw [h] at he
      cases o with
      | insertCall => exact hsanctioned.elim
      | _ => cases he
    · rw [h] at he
      cases he
      have hprovider := hfree f (Option.filter_eq_some_iff.mp hf).1
      refine ⟨?_, hprovider⟩
      generalize f.exn = exn at hraises hprovider
      cases o with
      | getCallStatus n p => exact ⟨n, p, rfl⟩
      | awaitOriginate | hangupCall => exact hsanctioned.elim
      | _ => cases exn <;> first | (cases hraises; done) | cases hprovider

variable {cfg : Config} {now : Time} {σ₀ σ : Store} {F G : Store → Prop}

/-! ## Facts that no sweep spoils

Freed agents, released borrowers and ended calls stay so under sanctioned operations. -/

theorem stable_true : Stable cfg now σ₀ fun _ => True := fun _ _ _ _ => trivial

/-- The agent has been freed or logged out. -/
def AgentIdle (a : DocId) (σ : Store) : Prop :=
  ∀ g, σ.agents.get? a = some g → g.state = .AVAILABLE ∨ g.state = .OFFLINE

/-- The borrower is in nobody's hands. -/
def BorrowerLetGo (b : DocId) (σ : Store) : Prop :=
  ∀ g, σ.borrowers.get? b = some g → g.status.held = false

/-- The call is finished, if there is one. -/
def CallEnded (c : DocId) (σ : Store) : Prop :=
  ∀ d, σ.calls.get? c = some d → d.terminal = true

theorem stable_agentIdle (a : DocId) : Stable cfg now σ₀ (AgentIdle a) := by
  intro σ o env _ hsanctioned hidle g' hg'
  obtain ⟨g, hg, hwrite⟩ := exec_agent_before hg'
  have hidle := hidle g hg
  cases hwrite with
  | unchanged => exact hidle
  | reserve | bind | beat => exact hsanctioned.elim
  | release => exact Or.inl hsanctioned.1
  | transition =>
    rcases hsanctioned with ⟨rfl, -⟩ | ⟨-, rfl, -⟩
    · exact Or.inr rfl
    · exact Or.inl rfl
  | reclaim => exact Or.inl rfl

theorem stable_borrowerLetGo (b : DocId) : Stable cfg now σ₀ (BorrowerLetGo b) := by
  intro σ o env _ hsanctioned hgone g' hg'
  obtain ⟨g, hg, hwrite⟩ := exec_borrower_before hg'
  cases hwrite with
  | unchanged => exact hgone _ hg
  | reserve => exact hsanctioned.elim
  | release => exact BorrowerRepo.not_held_releaseUpdate
  | reclaim => rfl

theorem stable_callEnded (c : DocId) : Stable cfg now σ₀ (CallEnded c) := by
  intro σ o env _ hsanctioned hended d' hd'
  have hinsert : ∀ draft, o ≠ .insertCall draft := fun _ ho => by
    rw [ho] at hsanctioned
    exact hsanctioned
  obtain ⟨d, hd, -⟩ := rel_right (exec_calls env σ hinsert c) hd'
  obtain ⟨d'', hd'', hev⟩ := exec_evolves env o σ c d hd
  cases hd''.symm.trans hd'
  exact (hev.frozen (hended d hd)).1

/-! ## Putting stable facts together

A program that has its decisive operation somewhere inside is cut into what comes before, the
operation, and what comes after. -/

/-- `x` succeeds, and afterwards `G` holds. -/
def Reaches (cfg : Config) (now : Time) (σ₀ : Store) (F : Store → Prop) {α : Type} (x : Py α)
    (G : Store → Prop) : Prop :=
  Achieves exec FailureFree (During cfg now σ₀ F) x fun _ σ => During cfg now σ₀ G σ

/-- A program that stays within the scope and lets nothing escape keeps what is stable. -/
theorem Stays.reaches {α : Type} {x : Py α} {Q : α → Prop}
    (hx : Stays FailureFree (fun _ => False) cfg now σ₀ x Q) (hF : Stable cfg now σ₀ F) :
    Reaches cfg now σ₀ F x F :=
  Achieves.conseq (hx F hF).achieves (fun _ h => h) fun _ _ h => h.2

/-- First a part that keeps `F`, then one that uses it. -/
theorem Stays.andThen {α β : Type} {x : Py α} {f : α → Py β} {Q : α → Prop}
    (hx : Stays FailureFree (fun _ => False) cfg now σ₀ x Q) (hF : Stable cfg now σ₀ F)
    (hf : ∀ a, Q a → Reaches cfg now σ₀ F (f a) G) : Reaches cfg now σ₀ F (x >>= f) G :=
  Achieves.bind (hx F hF).achieves fun a σ h => hf a h.1 σ h.2

/-- First a part that reaches `G`, then one that keeps it. -/
theorem Reaches.thenStays {α β : Type} {x : Py α} {f : α → Py β} {Q : α → Prop}
    (hx : Reaches cfg now σ₀ F x G) (hstays : Stays FailureFree (fun _ => False) cfg now σ₀ x Q)
    (hG : Stable cfg now σ₀ G)
    (hf : ∀ a, Q a → Stays FailureFree (fun _ => False) cfg now σ₀ (f a) fun _ => True) :
    Reaches cfg now σ₀ F (x >>= f) G := by
  have hboth : Achieves exec FailureFree (During cfg now σ₀ F) x
      fun a σ => Q a ∧ During cfg now σ₀ G σ := by
    intro σ hσ
    refine wp_mono (wp_and (hx σ hσ) ((hstays _ stable_true).achieves σ ⟨hσ.1, trivial⟩)) ?_
    rintro r σ' ⟨⟨a, rfl, hG⟩, a', ha', hQ, -⟩
    cases ha'
    exact ⟨a, rfl, hQ, hG⟩
  exact Achieves.bind hboth fun a σ h => (hf a h.1).reaches hG σ h.2

/-- An operation after which `G` holds. -/
theorem reaches_call {o : Op} (hsanctioned : Sanctioned cfg now σ₀ o)
    (hprovider : ∀ n p, o ≠ .getCallStatus n p)
    (hG : ∀ σ env, During cfg now σ₀ F σ → G (apply env o σ).2) :
    Reaches cfg now σ₀ F (SmartDialer.call o) G := by
  refine Achieves.perform fun σ env hσ henv => ?_
  have hswept := hσ.1.op env hsanctioned
  cases hr : (exec env o σ).1 with
  | error e =>
    -- only a question to the provider can fail
    rcases escapes_failureFree.sanctioned henv hsanctioned hr with ⟨⟨n, p, ho⟩, -⟩ | h
    · exact absurd ho (hprovider n p)
    · exact h.elim
  | ok a =>
    have hG := hG σ env hσ
    rw [← exec_of_ok hr] at hG
    exact ⟨a, rfl, hswept, hG⟩

/-- A query and the loop over its answer: the target is among the candidates, or there is nothing
left to do about it. `T` is that the target is there. -/
theorem reaches_query {o : Op} {β : Type} {f : Res o → Py β} {Q : Res o → Prop}
    {T : Res o → Prop} (hsanctioned : Sanctioned cfg now σ₀ o)
    (hprovider : ∀ n p, o ≠ .getCallStatus n p)
    (hstore : ∀ σ env, (apply env o σ).2 = σ)
    (hanswer : ∀ σ env a, Swept cfg now σ₀ σ → (apply env o σ).1 = .ok a → Q a)
    (htarget : ∀ σ env a, During cfg now σ₀ F σ → (apply env o σ).1 = .ok a → T a ∨ G σ)
    (hG : Stable cfg now σ₀ G)
    (hloop : ∀ a, Q a → T a → Reaches cfg now σ₀ (fun _ => True) (f a) G)
    (hstays : ∀ a, Q a → Stays FailureFree (fun _ => False) cfg now σ₀ (f a) fun _ => True) :
    Reaches cfg now σ₀ F (SmartDialer.call o >>= f) G := by
  refine Achieves.bind (Q := fun a σ => Swept cfg now σ₀ σ ∧ Q a ∧ (T a ∨ G σ))
    (Achieves.perform fun σ env hσ henv => ?_) fun a σ h => ?_
  · have hswept := hσ.1.op env hsanctioned
    cases hr : (exec env o σ).1 with
    | error e =>
      rcases escapes_failureFree.sanctioned henv hsanctioned hr with ⟨⟨n, p, ho⟩, -⟩ | h
      · exact absurd ho (hprovider n p)
      · exact h.elim
    | ok a =>
      have hr' := hr
      rw [exec_of_ok hr] at hr' hswept ⊢
      rw [hstore] at hswept ⊢
      exact ⟨a, rfl, hswept, hanswer σ env a hσ.1 hr', htarget σ env a hσ hr'⟩
  · obtain ⟨hswept, hQ, htarget | hdone⟩ := h
    · exact hloop a hQ htarget σ ⟨hswept, trivial⟩
    · exact (hstays a hQ).reaches hG σ ⟨hswept, hdone⟩

/-! ## The loops reach their candidates

By induction on the candidates. The target comes first, and then its own iteration reaches it and
the rest of the loop keeps that; or it comes later. -/

/-- The first sweep frees its candidates: nobody else changes them during a pass, so the conditional
release finds each as the query has found him. -/
theorem reaches_sweepExpiredAgentLeasesLoop {agents : List Agent}
    (h : ExpiredAgents now σ₀ agents) {g₀ : Agent} (hmem : g₀ ∈ agents) (n : Nat) :
    Reaches cfg now σ₀ (fun _ => True) (sweepExpiredAgentLeasesLoop cfg now agents n)
      (AgentIdle g₀.id) := by
  induction agents generalizing n with
  | nil => cases hmem
  | cons g agents ih =>
    obtain ⟨hg, hexpired⟩ := h g List.mem_cons_self
    have hrest : ExpiredAgents now σ₀ agents := fun g' hg' => h g' (List.mem_cons_of_mem _ hg')
    have hsanctioned : Sanctioned cfg now σ₀ (.releaseExpiredAgentLease g now) := by
      intro g' hg'
      cases hg.symm.trans hg'
      exact Or.inl hexpired
    -- cancelling the call of a candidate leaves the agents alone
    refine (stays_cancelBoundCall escapes_failureFree (mayEnd_of_leaseExpired hexpired hg)).andThen
      stable_true fun _ _ => ?_
    rcases List.mem_cons.mp hmem with rfl | hmem
    · -- an agent the sweeps have not touched still matches the filter
      refine (reaches_call hsanctioned nofun fun σ env hσ => ?_).thenStays
        (.call' escapes_failureFree hsanctioned nofun) (stable_agentIdle _)
        fun _ _ => stays_sweepExpiredAgentLeasesLoop escapes_failureFree hrest _
      intro g' hg'
      rcases Collection.findOneAndUpdate_cases σ.agents g₀.id
          (fun d => d.state = g₀.state ∧ d.stateVersion = g₀.stateVersion
            ∧ ∃ t ∈ d.leaseExpiresAt, t < now) (AgentRepo.leaseReclaimUpdate now) (fun _ => rfl)
        with ⟨d, -, -, -, hget, -⟩ | ⟨hno, -, hsame⟩
      · cases hget.symm.trans hg'
        exact Or.inl rfl
      · have hg'σ : σ.agents.get? g₀.id = some g' := hsame ▸ hg'
        obtain ⟨g₁, hg₁, hswept⟩ := rel_right (hσ.1.agents _) hg'σ
        cases hg.symm.trans hg₁
        rcases hswept.fate with rfl | ⟨hoff, -⟩ | ⟨hidle, -⟩
        · exact absurd ⟨rfl, rfl, hexpired.2.2⟩ (hno _ hg'σ)
        · exact Or.inr hoff
        · exact Or.inl hidle
    -- a later candidate of the loop
    · exact (Stays.call' escapes_failureFree hsanctioned nofun).andThen stable_true
        fun _ _ => ih hrest hmem _

/-- The second sweep frees its candidates. A borrower whom an earlier sweep has released in the
meantime is let go as well. -/
theorem reaches_reclaimLoop {candidates : List Borrower}
    (h : ExpiredBorrowers now σ₀ candidates) {b₀ : Borrower} (hmem : b₀ ∈ candidates)
    (hb₀ : σ₀.borrowers.get? b₀.id = some b₀) (hexpired : BorrowerRepo.leaseExpired now b₀)
    (n : Nat) :
    Reaches cfg now σ₀ (fun _ => True) (reclaimLoop now candidates n) (BorrowerLetGo b₀.id) := by
  induction candidates generalizing n with
  | nil => cases hmem
  | cons b candidates ih =>
    have hrest : ExpiredBorrowers now σ₀ candidates :=
      fun b' hb' => h b' (List.mem_cons_of_mem _ hb')
    have hsanctioned : Sanctioned cfg now σ₀ (.reclaimBorrowerLease b now) :=
      h b List.mem_cons_self
    rcases List.mem_cons.mp hmem with rfl | hmem
    · refine (reaches_call hsanctioned nofun fun σ env hσ => ?_).thenStays
        (.call' escapes_failureFree hsanctioned nofun) (stable_borrowerLetGo _)
        fun _ _ => stays_reclaimLoop escapes_failureFree hrest _
      intro b' hb'
      -- a borrower the sweeps have not let go still matches the filter
      rcases Collection.findOneAndUpdate_cases σ.borrowers b₀.id
          (fun d => d.status = b₀.status ∧ d.stateVersion = b₀.stateVersion
            ∧ ∃ t ∈ d.leaseExpiresAt, t < now) (BorrowerRepo.reclaimUpdate now) (fun _ => rfl)
        with ⟨d, -, -, -, hget, -⟩ | ⟨hno, -, hsame⟩
      · cases hget.symm.trans hb'
        rfl
      · have hb'σ : σ.borrowers.get? b₀.id = some b' := hsame ▸ hb'
        obtain ⟨b₁, hb₁, hswept⟩ := rel_right (hσ.1.borrowers _) hb'σ
        cases hb₀.symm.trans hb₁
        rcases hswept.freed with rfl | ⟨hfree, -⟩
        · exact absurd ⟨rfl, rfl, hexpired.2.2⟩ (hno _ hb'σ)
        · exact hfree
    · exact (Stays.call' escapes_failureFree hsanctioned nofun).andThen stable_true
        fun _ _ => ih hrest hmem _

/-- A transition into a terminal state leaves the call finished, one way or the other. -/
theorem callEnded_transitionCall (hranked : CallsRanked σ₀.calls) {c : DocId} {t : CallState}
    (ht : CallSm.isTerminal t = true) (reason : Option String) (env : Env)
    (hσ : Swept cfg now σ₀ σ) : CallEnded c (apply env (.transitionCall c t reason) σ).2 := by
  intro d' hd'
  rcases CallRepo.transitionCall_cases env.now c t reason σ.calls
    with ⟨d, -, -, -, hget, -⟩ | ⟨hno, -, hcalls⟩
  · cases hget.symm.trans hd'
    exact ht
  · have hd : σ.calls.get? c = some d' :=
      (congrArg (fun calls => Calls.get? calls c) hcalls).symm.trans hd'
    obtain ⟨d₀, hd₀, rfl | ⟨hterm, -⟩⟩ := rel_right (hσ.calls c) hd
    · exact (hranked c d' hd₀).terminal_of_not_filter ht (hno d' hd)
    · exact hterm

/-- An agent who is bound to a call takes the call with him. It is cancelled if it is open when it
is read; if it is not, it has ended already. -/
theorem reaches_cancelBoundCall (hsound : CallsSound σ₀.calls) {agent : Agent} {reason : String}
    {c : DocId} (hbound : agent.currentCallId = some c)
    (hend : ∀ d, σ₀.calls.get? c = some d → d.terminal = false → MayEnd cfg now σ₀ d) :
    Reaches cfg now σ₀ (fun _ => True) (cancelBoundCall cfg agent reason) (CallEnded c) := by
  unfold cancelBoundCall
  rw [hbound]
  refine reaches_query (T := fun bound => ∃ b, bound = some b ∧ b.terminal = false)
    (Q := fun bound => ∀ b ∈ bound, b.id = c) trivial nofun (fun _ _ => rfl)
    (fun σ env bound _ ha b hb => ?_) (fun σ env bound hσ ha => ?_) (stable_callEnded c) ?_ ?_
  · have hfound : CallRepo.findById c σ.calls = some b :=
      (Except.ok.inj ha).trans (Option.mem_def.mp hb)
    obtain ⟨d, hd, rfl⟩ := Option.map_eq_some_iff.mp hfound
    have hid := Calls.id_of_get? hd
    exact hid
  · have hfound : CallRepo.findById c σ.calls = bound := Except.ok.inj ha
    cases hd : σ.calls.get? c with
    | none =>
      refine Or.inr fun d hd' => ?_
      rw [hd] at hd'
      cases hd'
    | some d =>
      have heq : bound = some d.fromMongo := by
        rw [← hfound, CallRepo.findById, hd]
        rfl
      -- a call that the sweeps have not touched is read as it is stored
      obtain ⟨d₀, hd₀, hswept⟩ := rel_right (hσ.1.calls c) hd
      cases hterm : d.terminal with
      | true =>
        refine Or.inr fun d' hd' => ?_
        cases hd.symm.trans hd'
        exact hterm
      | false =>
        obtain rfl := hswept.eq_of_open hterm
        refine Or.inl ⟨_, heq, ?_⟩
        rw [(hsound c d hd₀).fromMongo]
        exact hterm
  · rintro bound hid ⟨b, rfl, hopen⟩
    obtain rfl := hid b rfl
    show Reaches cfg now σ₀ _ (if b.terminal then _ else _) _
    rw [hopen]
    have hsanctioned : Sanctioned cfg now σ₀ (.transitionCall b.id .CANCELLED (some reason)) :=
      ⟨rfl, hend⟩
    refine (reaches_call hsanctioned nofun fun σ env hσ =>
      callEnded_transitionCall hsound.ranked rfl _ env hσ.1).thenStays
      (stays_transitionCall escapes_failureFree hsanctioned) (stable_callEnded _)
      fun ended hended => ?_
    cases ended with
    | none => exact .pure trivial
    | some e => exact stays_releaseBorrower escapes_failureFree (hended e rfl) hend
  · rintro bound hid
    cases bound with
    | none => exact .pure trivial
    | some b =>
      obtain rfl := hid b rfl
      show Stays _ _ cfg now σ₀ (if b.terminal then _ else _) _
      split
      · exact .pure trivial
      · refine .bind (stays_transitionCall escapes_failureFree ⟨rfl, hend⟩) fun ended hended => ?_
        cases ended with
        | none => exact .pure trivial
        | some e => exact stays_releaseBorrower escapes_failureFree (hended e rfl) hend

/-- The first sweep ends what its candidates are bound to. By induction on the candidates: those
before leave the call alone or end it, those after cannot open it again. -/
theorem reaches_boundCall (hsound : CallsSound σ₀.calls) {agents : List Agent}
    (h : ExpiredAgents now σ₀ agents) {g₀ : Agent} (hmem : g₀ ∈ agents) {c : DocId}
    (hbound : g₀.currentCallId = some c) (n : Nat) :
    Reaches cfg now σ₀ (fun _ => True) (sweepExpiredAgentLeasesLoop cfg now agents n)
      (CallEnded c) := by
  induction agents generalizing n with
  | nil => cases hmem
  | cons g agents ih =>
    obtain ⟨hg, hexpired⟩ := h g List.mem_cons_self
    have hrest : ExpiredAgents now σ₀ agents := fun g' hg' => h g' (List.mem_cons_of_mem _ hg')
    have hsanctioned : Sanctioned cfg now σ₀ (.releaseExpiredAgentLease g now) := by
      intro g' hg'
      cases hg.symm.trans hg'
      exact Or.inl hexpired
    have hcancel : Stays FailureFree (fun _ => False) cfg now σ₀
        (cancelBoundCall cfg g "agent_lease_expired") fun _ => True :=
      stays_cancelBoundCall escapes_failureFree (mayEnd_of_leaseExpired hexpired hg)
    rcases List.mem_cons.mp hmem with rfl | hmem
    -- the first candidate is the agent of the call
    · refine Reaches.thenStays (reaches_cancelBoundCall hsound hbound
        (mayEnd_of_leaseExpired hexpired hg c hbound)) hcancel (stable_callEnded c) fun _ _ => ?_
      exact .bind (.call' escapes_failureFree hsanctioned nofun) fun _ _ =>
        stays_sweepExpiredAgentLeasesLoop escapes_failureFree hrest _
    · exact hcancel.andThen stable_true fun _ _ =>
        (Stays.call' escapes_failureFree hsanctioned nofun).andThen stable_true
          fun _ _ => ih hrest hmem _

/-- The third sweep ends its candidates, whatever the provider says about them. An unknown provider,
a provider error and an unknown status all count as failed. -/
theorem reaches_sweepOrphanedCallsLoop (hranked : CallsRanked σ₀.calls) {orphans : List Call}
    (h : StaleCalls cfg now σ₀ orphans) {e : Call} (hmem : e ∈ orphans) (n : Nat) :
    Reaches cfg now σ₀ (fun _ => True) (sweepOrphanedCallsLoop cfg orphans n)
      (CallEnded e.id) := by
  induction orphans generalizing n with
  | nil => cases hmem
  | cons orphan orphans ih =>
    have hrest : StaleCalls cfg now σ₀ orphans := fun e he => h e (List.mem_cons_of_mem _ he)
    have hstays : ∀ n, Stays FailureFree (fun _ => False) cfg now σ₀
        (sweepOrphanedCallsLoop cfg orphans n) fun _ => True :=
      stays_sweepOrphanedCallsLoop escapes_failureFree hrest
    -- the provider is asked first, and whatever it says the call is ended
    refine (stays_reconcileWithProvider escapes_failureFree orphan).andThen stable_true
      fun t ht => ?_
    have hsanctioned : ∀ reason, Sanctioned cfg now σ₀ (.transitionCall orphan.id t reason) :=
      fun _ => ⟨ht, fun d hd hopen => h.mayEnd hd hopen⟩
    rcases List.mem_cons.mp hmem with rfl | hmem
    · refine (reaches_call (hsanctioned _) nofun fun σ env hσ =>
        callEnded_transitionCall hranked ht _ env hσ.1).thenStays
        (stays_transitionCall escapes_failureFree (hsanctioned _)) (stable_callEnded _)
        fun finished hfinished => ?_
      cases finished with
      | none => exact hstays _
      | some ended =>
        exact .bind (stays_releaseParties escapes_failureFree h (hfinished ended rfl))
          fun _ _ => hstays _
    · refine (stays_transitionCall escapes_failureFree (hsanctioned _)).andThen stable_true
        fun finished hfinished => ?_
      cases finished with
      | none => exact ih hrest hmem _
      | some ended =>
        exact (stays_releaseParties escapes_failureFree h (hfinished ended rfl)).andThen
          stable_true fun _ _ => ih hrest hmem _

/-- The fourth sweep ends what its candidates are bound to. -/
theorem reaches_sweepHeartbeatTimeoutsLoop (hsound : CallsSound σ₀.calls) {agents : List Agent}
    (h : SilentAgents cfg now σ₀ agents) {g₀ : Agent} (hmem : g₀ ∈ agents) {c : DocId}
    (hbound : g₀.currentCallId = some c) (n : Nat) :
    Reaches cfg now σ₀ (fun _ => True) (sweepHeartbeatTimeoutsLoop cfg agents n)
      (CallEnded c) := by
  induction agents generalizing n with
  | nil => cases hmem
  | cons g agents ih =>
    have hrest : SilentAgents cfg now σ₀ agents := fun g' hg' => h g' (List.mem_cons_of_mem _ hg')
    have hcancel : Stays FailureFree (fun _ => False) cfg now σ₀
        (cancelBoundCall cfg g "agent_disappeared") fun _ => True :=
      stays_cancelBoundCall escapes_failureFree h.mayEnd
    have hlogout := stays_logout escapes_failureFree h
    rcases List.mem_cons.mp hmem with rfl | hmem
    · exact Reaches.thenStays (reaches_cancelBoundCall hsound hbound (h.mayEnd c hbound)) hcancel
        (stable_callEnded c) fun _ _ => .bind hlogout fun _ _ =>
          stays_sweepHeartbeatTimeoutsLoop escapes_failureFree hrest _
    · exact hcancel.andThen stable_true fun _ _ => hlogout.andThen stable_true
        fun _ _ => ih hrest hmem _

/-- The fifth sweep makes its candidates available. The write asks for the version that was read; if
another sweep has been faster, the agent has left `WRAP_UP` already. -/
theorem reaches_sweepStuckWrapUpsLoop {agents : List Agent} (h : StuckAgents cfg now σ₀ agents)
    {g₀ : Agent} (hmem : g₀ ∈ agents) (n : Nat) :
    Reaches cfg now σ₀ (fun _ => True) (sweepStuckWrapUpsLoop agents n) (AgentIdle g₀.id) := by
  induction agents generalizing n with
  | nil => cases hmem
  | cons g agents ih =>
    have hrest : StuckAgents cfg now σ₀ agents := fun g' hg' => h g' (List.mem_cons_of_mem _ hg')
    have hsanctioned : Sanctioned cfg now σ₀
        (.transitionAgent g.id .WRAP_UP .AVAILABLE .RECOVERY g.stateVersion) :=
      Or.inr ⟨rfl, rfl, fun g' hg' => h.mayFree hg'⟩
    have hstays := stays_transitionAgent escapes_failureFree (s := .WRAP_UP) (t := .AVAILABLE)
      (by decide) hsanctioned
    rcases List.mem_cons.mp hmem with rfl | hmem
    · refine Reaches.thenStays ?_ hstays (stable_agentIdle _)
        fun _ _ => stays_sweepStuckWrapUpsLoop escapes_failureFree hrest _
      obtain ⟨hg, hexpired⟩ := h g₀ List.mem_cons_self
      show Reaches cfg now σ₀ _ (call (.transitionAgent g₀.id .WRAP_UP .AVAILABLE .RECOVERY
        g₀.stateVersion)) _
      refine reaches_call hsanctioned nofun fun σ env hσ g' hg' => ?_
      -- an agent the sweeps have not touched still matches the filter
      rcases Collection.findOneAndUpdate_cases σ.agents g₀.id
          (fun d => d.state = .WRAP_UP ∧ d.stateVersion = g₀.stateVersion)
          (AgentRepo.transitionUpdate env.now .WRAP_UP .AVAILABLE) (fun _ => rfl)
        with ⟨d, -, -, -, hget, -⟩ | ⟨hno, -, hsame⟩
      · cases hget.symm.trans hg'
        exact Or.inl rfl
      · have hg'σ : σ.agents.get? g₀.id = some g' := hsame ▸ hg'
        obtain ⟨g₁, hg₁, hswept⟩ := rel_right (hσ.1.agents _) hg'σ
        cases hg.symm.trans hg₁
        rcases hswept.fate with rfl | ⟨hoff, -⟩ | ⟨hidle, -⟩
        · exact absurd ⟨hexpired.1, rfl⟩ (hno _ hg'σ)
        · exact Or.inr hoff
        · exact Or.inl hidle
    · exact hstays.andThen stable_true fun _ _ => ih hrest hmem _

/-! ## The sweeps reach their rows

A row that is due is among the candidates when its sweep begins, or has been dealt with before. -/

theorem agents_find_length_le (hσ : Swept cfg now σ₀ σ) (p : Agent → Prop) [DecidablePred p] :
    (σ.agents.find p).length ≤ σ₀.agents.docs.length :=
  (Collection.length_find_le_of_injective (q := fun _ => True) Agent.id
    (fun g hg => by
      obtain ⟨g₀, hg₀, -⟩ := rel_right (hσ.agents _) (Collection.mem_find.mp hg).1
      exact ⟨g₀, hg₀, trivial⟩)
    fun g hg g' hg' hid => by
      have hget := (Collection.mem_find.mp hg).1
      have hget' := (Collection.mem_find.mp hg').1
      simp only [Agent.key_eq, hid] at hget hget'
      exact Option.some.inj (hget.symm.trans hget')).trans
    (Collection.find_length_le _ _)

theorem borrowers_find_length_le (hσ : Swept cfg now σ₀ σ) (p : Borrower → Prop)
    [DecidablePred p] : (σ.borrowers.find p).length ≤ σ₀.borrowers.docs.length :=
  (Collection.length_find_le_of_injective (q := fun _ => True) Borrower.id
    (fun b hb => by
      obtain ⟨b₀, hb₀, -⟩ := rel_right (hσ.borrowers _) (Collection.mem_find.mp hb).1
      exact ⟨b₀, hb₀, trivial⟩)
    fun b hb b' hb' hid => by
      have hget := (Collection.mem_find.mp hb).1
      have hget' := (Collection.mem_find.mp hb').1
      simp only [Borrower.key_eq, hid] at hget hget'
      exact Option.some.inj (hget.symm.trans hget')).trans
    (Collection.find_length_le _ _)

theorem calls_find_length_le (hσ : Swept cfg now σ₀ σ) (p : Call → Prop) [DecidablePred p] :
    (σ.calls.coll.find p).length ≤ σ₀.calls.coll.docs.length :=
  (Collection.length_find_le_of_injective (q := fun _ => True) Call.id
    (fun d hd => by
      obtain ⟨d₀, hd₀, -⟩ := rel_right (hσ.calls _) (Collection.mem_find.mp hd).1
      exact ⟨d₀, hd₀, trivial⟩)
    fun d hd d' hd' hid => by
      have hget := (Collection.mem_find.mp hd).1
      have hget' := (Collection.mem_find.mp hd').1
      simp only [Call.key_eq, hid] at hget hget'
      exact Option.some.inj (hget.symm.trans hget')).trans
    (Collection.find_length_le _ _)

/-- An agent of `σ₀` is still as he was, or idle. -/
theorem untouched_or_idle (hσ : Swept cfg now σ₀ σ) {g₀ : Agent}
    (hg₀ : σ₀.agents.get? g₀.id = some g₀) :
    σ.agents.get? g₀.id = some g₀ ∨ AgentIdle g₀.id σ := by
  obtain ⟨g, hg, hswept⟩ := rel_left (hσ.agents _) hg₀
  rcases hswept.fate with rfl | ⟨hoff, -⟩ | ⟨hidle, -⟩
  · exact Or.inl hg
  · refine Or.inr fun g' hg' => ?_
    cases hg.symm.trans hg'
    exact Or.inr hoff
  · refine Or.inr fun g' hg' => ?_
    cases hg.symm.trans hg'
    exact Or.inl hidle

variable {limit : Int}

theorem mem_findExpiredAgentLeases (hσ : Swept cfg now σ₀ σ) {g₀ : Agent}
    (hlimit : (σ₀.agents.docs.length : Int) ≤ limit) (hg : σ.agents.get? g₀.id = some g₀)
    (hexpired : AgentRepo.leaseExpired now g₀) :
    g₀ ∈ AgentRepo.findExpiredAgentLeases now limit σ.agents := by
  have hlength := agents_find_length_le hσ (AgentRepo.leaseExpired now)
  unfold AgentRepo.findExpiredAgentLeases
  rw [limited_eq_self (by omega)]
  exact Collection.mem_find.mpr ⟨hg, hexpired⟩

theorem reaches_agentIdle {g₀ : Agent} (hg₀ : σ₀.agents.get? g₀.id = some g₀)
    (hexpired : AgentRepo.leaseExpired now g₀)
    (hlimit : (σ₀.agents.docs.length : Int) ≤ limit) :
    Reaches cfg now σ₀ (fun _ => True) (sweepExpiredAgentLeases cfg now limit)
      (AgentIdle g₀.id) := by
  refine reaches_query trivial nofun (fun _ _ => rfl)
    (fun σ env a hσ ha => Except.ok.inj ha ▸ expiredAgents_find hσ limit)
    (T := fun agents => g₀ ∈ agents) (fun σ env a hσ ha => ?_) (stable_agentIdle _)
    (fun agents h hmem => reaches_sweepExpiredAgentLeasesLoop h hmem 0)
    fun agents h => stays_sweepExpiredAgentLeasesLoop escapes_failureFree h 0
  cases ha
  exact (untouched_or_idle hσ.1 hg₀).imp_left fun hg =>
    mem_findExpiredAgentLeases hσ.1 hlimit hg hexpired

theorem reaches_callEnded_of_bound (hsound : CallsSound σ₀.calls) {g₀ : Agent} {c : DocId}
    (hbound : g₀.currentCallId = some c) (hexpired : AgentRepo.leaseExpired now g₀)
    (hlimit : (σ₀.agents.docs.length : Int) ≤ limit) :
    Reaches cfg now σ₀ (fun σ => σ.agents.get? g₀.id = some g₀)
      (sweepExpiredAgentLeases cfg now limit) (CallEnded c) := by
  refine reaches_query trivial nofun (fun _ _ => rfl)
    (fun σ env a hσ ha => Except.ok.inj ha ▸ expiredAgents_find hσ limit)
    (T := fun agents => g₀ ∈ agents) (fun σ env a hσ ha => ?_) (stable_callEnded c)
    (fun agents h hmem => reaches_boundCall hsound h hmem hbound 0)
    fun agents h => stays_sweepExpiredAgentLeasesLoop escapes_failureFree h 0
  cases ha
  exact Or.inl (mem_findExpiredAgentLeases hσ.1 hlimit hσ.2 hexpired)

/-- The second sweep frees whoever is due. -/
theorem reaches_borrowerLetGo {b₀ : Borrower} (hb₀ : σ₀.borrowers.get? b₀.id = some b₀)
    (hexpired : BorrowerRepo.leaseExpired now b₀)
    (hlimit : (σ₀.borrowers.docs.length : Int) ≤ limit) :
    Reaches cfg now σ₀ (fun _ => True) (sweepExpiredBorrowerLeases now limit)
      (BorrowerLetGo b₀.id) := by
  refine reaches_query trivial nofun (fun _ _ => rfl)
    (fun σ env a hσ ha => Except.ok.inj ha ▸ expiredBorrowers_find hσ limit)
    (T := fun candidates => b₀ ∈ candidates) (fun σ env a hσ ha => ?_)
    (stable_borrowerLetGo _)
    (fun candidates h hmem => reaches_reclaimLoop h hmem hb₀ hexpired 0)
    fun candidates h => stays_reclaimLoop escapes_failureFree h 0
  cases ha
  obtain ⟨b, hb, hswept⟩ := rel_left (hσ.1.borrowers _) hb₀
  rcases hswept.freed with rfl | ⟨hfree, -⟩
  · have hlength := borrowers_find_length_le hσ.1 (BorrowerRepo.leaseExpired now)
    unfold BorrowerRepo.findExpiredBorrowerLeases
    rw [limited_eq_self (by omega)]
    exact Or.inl (Collection.mem_find.mpr ⟨hb, hexpired⟩)
  · refine Or.inr fun b' hb' => ?_
    cases hb.symm.trans hb'
    exact hfree

/-- The third sweep ends whatever is stale. -/
theorem reaches_callEnded_of_stale (hsound : CallsSound σ₀.calls) {d₀ : Call}
    (hd₀ : σ₀.calls.get? d₀.id = some d₀) (hstale : CallRepo.stale (staleCutoff cfg now) d₀)
    (hlimit : (σ₀.calls.coll.docs.length : Int) ≤ limit) :
    Reaches cfg now σ₀ (fun _ => True) (sweepOrphanedCalls cfg now limit) (CallEnded d₀.id) := by
  refine reaches_query trivial nofun (fun _ _ => rfl)
    (fun σ env a hσ ha => Except.ok.inj ha ▸ staleCalls_find hσ limit)
    (T := fun orphans => ∃ e ∈ orphans, e.id = d₀.id) (fun σ env a hσ ha => ?_)
    (stable_callEnded _)
    (fun orphans h ⟨e, he, hid⟩ => hid ▸ reaches_sweepOrphanedCallsLoop hsound.ranked h he 0)
    fun orphans h => stays_sweepOrphanedCallsLoop escapes_failureFree h 0
  cases ha
  obtain ⟨d, hd, rfl | ⟨hterm, -⟩⟩ := rel_left (hσ.1.calls _) hd₀
  · refine Or.inl ⟨d.fromMongo, List.mem_map_of_mem ?_, rfl⟩
    have hlength := calls_find_length_le hσ.1
      (CallRepo.stale (now - seconds cfg.settings.CALL_STALE_TIMEOUT_SECONDS))
    rw [limited_eq_self (by rw [List.length_insertionSort]; omega), List.mem_insertionSort]
    exact Collection.mem_find.mpr ⟨hd, hstale⟩
  · refine Or.inr fun d' hd' => ?_
    cases hd.symm.trans hd'
    exact hterm

/-- The fifth sweep ends the wrap-ups that are stuck. -/
theorem reaches_agentIdle_of_wrapUp {g₀ : Agent} (hg₀ : σ₀.agents.get? g₀.id = some g₀)
    (hexpired : AgentRepo.wrapUpExpired (wrapUpCutoff cfg now) none g₀)
    (hlimit : (σ₀.agents.docs.length : Int) ≤ limit) :
    Reaches cfg now σ₀ (fun _ => True) (sweepStuckWrapUps cfg now limit) (AgentIdle g₀.id) := by
  refine reaches_query trivial nofun (fun _ _ => rfl)
    (fun σ env a hσ ha => Except.ok.inj ha ▸ stuckAgents_find hσ limit)
    (T := fun agents => g₀ ∈ agents) (fun σ env a hσ ha => ?_) (stable_agentIdle _)
    (fun agents h hmem => reaches_sweepStuckWrapUpsLoop h hmem 0)
    fun agents h => stays_sweepStuckWrapUpsLoop escapes_failureFree h 0
  cases ha
  refine (untouched_or_idle hσ.1 hg₀).imp_left fun hg => ?_
  have hlength := agents_find_length_le hσ.1 (AgentRepo.wrapUpExpired
    (now - seconds (cfg.settings.WRAP_UP_SECONDS + cfg.settings.WRAP_UP_SECONDS * 2)) none)
  unfold AgentRepo.findExpiredWrapUps
  rw [limited_eq_self (by rw [List.length_insertionSort]; omega), List.mem_insertionSort]
  exact Collection.mem_find.mpr ⟨hg, hexpired⟩

/-- The same settings with another heartbeat timeout. The first three sweeps do not read it. -/
def patient (cfg : Config) (timeout : Int) : Config :=
  { cfg with settings := { cfg.settings with AGENT_HEARTBEAT_TIMEOUT_SECONDS := timeout } }

theorem sweepExpiredAgentLeases_patient (cfg : Config) (timeout : Int) (now : Time) (limit : Int) :
    sweepExpiredAgentLeases (patient cfg timeout) now limit
      = sweepExpiredAgentLeases cfg now limit := by
  have hloop : ∀ agents n, sweepExpiredAgentLeasesLoop (patient cfg timeout) now agents n
      = sweepExpiredAgentLeasesLoop cfg now agents n := by
    intro agents
    induction agents with
    | nil => exact fun _ => rfl
    | cons agent agents ih =>
      intro n
      unfold sweepExpiredAgentLeasesLoop
      simp only [ih]
      rfl
  unfold sweepExpiredAgentLeases
  simp only [hloop]

theorem sweepOrphanedCalls_patient (cfg : Config) (timeout : Int) (now : Time) (limit : Int) :
    sweepOrphanedCalls (patient cfg timeout) now limit = sweepOrphanedCalls cfg now limit := by
  have hloop : ∀ orphans n, sweepOrphanedCallsLoop (patient cfg timeout) orphans n
      = sweepOrphanedCallsLoop cfg orphans n := by
    intro orphans
    induction orphans with
    | nil => exact fun _ => rfl
    | cons orphan orphans ih =>
      intro n
      unfold sweepOrphanedCallsLoop
      simp only [ih]
      rfl
  unfold sweepOrphanedCalls
  simp only [hloop]
  rfl

/-- Under a long enough timeout an agent is not silent. -/
theorem exists_not_silent (cfg : Config) (now : Time) (g : Agent) :
    ∃ timeout, ¬ Silent (patient cfg timeout) now g := by
  cases hbeat : g.lastHeartbeatAt with
  | none =>
    refine ⟨0, ?_⟩
    rintro ⟨t, ht, -⟩
    rw [hbeat] at ht
    cases ht
  | some t =>
    refine ⟨(now - t).natAbs, ?_⟩
    rintro ⟨t', ht', hlt⟩
    rw [hbeat] at ht'
    obtain rfl := Option.some.inj ht'
    have hreach : ∀ now t : Int, now - (now - t).natAbs * 1000 ≤ t := by
      intro now t
      omega
    exact absurd hlt (Int.not_lt.mpr (hreach now t))

/-- The fourth sweep ends the call of a silent agent whom nothing else can free. That he still has
his call when the sweep begins follows from the same pass under a patient timeout, where he is out
of reach. -/
theorem reaches_callEnded_of_silent (hsound : CallsSound σ₀.calls) {g₀ : Agent} {c : DocId}
    (hg₀ : σ₀.agents.get? g₀.id = some g₀) (hbound : g₀.currentCallId = some c)
    (hexpired : AgentRepo.heartbeatExpired (heartbeatCutoff cfg now) g₀)
    (hkept : ¬ MayFreeAgent cfg now σ₀ g₀) {timeout : Int}
    (hbeats : ¬ Silent (patient cfg timeout) now g₀)
    (hlimit : (σ₀.agents.docs.length : Int) ≤ limit) :
    Reaches cfg now σ₀ (Swept (patient cfg timeout) now σ₀)
      (sweepHeartbeatTimeouts cfg now limit) (CallEnded c) := by
  refine reaches_query trivial nofun (fun _ _ => rfl)
    (fun σ env a hσ ha => Except.ok.inj ha ▸ silentAgents_find hσ limit)
    (T := fun agents => g₀ ∈ agents) (fun σ env a hσ ha => Or.inl ?_) (stable_callEnded c)
    (fun agents h hmem => reaches_sweepHeartbeatTimeoutsLoop hsound h hmem hbound 0)
    fun agents h => stays_sweepHeartbeatTimeoutsLoop escapes_failureFree h 0
  cases ha
  -- nothing has happened to the agent yet
  obtain ⟨g, hg, hswept⟩ := rel_left (hσ.2.agents _) hg₀
  have hsame : g = g₀ := by
    rcases hswept.fate with heq | ⟨-, hsilent⟩ | ⟨-, hfree⟩
    · exact heq
    · exact absurd hsilent hbeats
    · exact absurd hfree hkept
  subst hsame
  have hlength := agents_find_length_le hσ.1
    (AgentRepo.heartbeatExpired (heartbeatCutoff cfg now))
  show g ∈ AgentRepo.findHeartbeatExpired (heartbeatCutoff cfg now) limit σ.agents
  unfold AgentRepo.findHeartbeatExpired
  rw [limited_eq_self (by omega)]
  exact Collection.mem_find.mpr ⟨hg, hexpired⟩

/-! ## The run reaches all of them

What one sweep reaches the later ones keep, and the earlier ones do not stand in its way. -/

variable {name : SweepName} {sweep : Py Nat} {rest : List (SweepName × Py Nat)}

/-- What the first sweep of the list reaches. -/
theorem Reaches.ofFirst (h : Reaches cfg now σ₀ F sweep G) (hG : Stable cfg now σ₀ G)
    (hsweep : Stays FailureFree (fun _ => False) cfg now σ₀ sweep fun _ => True)
    (hrest : ∀ p ∈ rest, Stays FailureFree (fun _ => False) cfg now σ₀ p.2 fun _ => True)
    (counts : RecoverySweepCounts) :
    Reaches cfg now σ₀ F (runSweepsLoop ((name, sweep) :: rest) counts) G := by
  have hfirst : Reaches cfg now σ₀ F (do let n ← sweep; pure (counts.set n name)) G :=
    h.thenStays hsweep hG fun _ _ => .pure trivial
  exact Achieves.bind (Achieves.catching hfirst) fun counts =>
    (stays_runSweepsLoop hrest counts).reaches hG

/-- What a later sweep reaches. -/
theorem Reaches.ofRest (hsweep : Reaches cfg now σ₀ F sweep F)
    (h : ∀ counts, Reaches cfg now σ₀ F (runSweepsLoop rest counts) G)
    (counts : RecoverySweepCounts) :
    Reaches cfg now σ₀ F (runSweepsLoop ((name, sweep) :: rest) counts) G := by
  have hfirst : Reaches cfg now σ₀ F (do let n ← sweep; pure (counts.set n name)) F :=
    Achieves.bind hsweep fun _ => Achieves.pure fun _ hσ => hσ
  exact Achieves.bind (Achieves.catching hfirst) h

/-- A program that stays within two scopes at once. -/
theorem Stays.within {α : Type} {x : Py α} {cfg' : Config}
    (h : Stays FailureFree (fun _ => False) cfg now σ₀ x fun _ => True)
    (h' : Stays FailureFree (fun _ => False) cfg' now σ₀ x fun _ => True) :
    Reaches cfg now σ₀ (Swept cfg' now σ₀) x (Swept cfg' now σ₀) := by
  intro σ hσ
  refine wp_mono (wp_and ((h _ stable_true).achieves σ ⟨hσ.1, trivial⟩)
    ((h' _ stable_true).achieves σ ⟨hσ.2, trivial⟩)) ?_
  rintro r σ' ⟨⟨a, rfl, -, hswept, -⟩, -, -, -, hswept', -⟩
  exact ⟨a, rfl, hswept, hswept'⟩

/-- After the sweeps at `now`, every row of `σ₀` whose time was over has been dealt with. A silent
agent's call is included where no other sweep could have freed him first. -/
structure Covered (cfg : Config) (now : Time) (σ₀ σ : Store) : Prop where
  expiredAgent : ∀ g₀, σ₀.agents.get? g₀.id = some g₀ → AgentRepo.leaseExpired now g₀ →
    AgentIdle g₀.id σ
  boundCall : ∀ g₀ c, σ₀.agents.get? g₀.id = some g₀ → AgentRepo.leaseExpired now g₀ →
    g₀.currentCallId = some c → CallEnded c σ
  expiredBorrower : ∀ b₀, σ₀.borrowers.get? b₀.id = some b₀ → BorrowerRepo.leaseExpired now b₀ →
    BorrowerLetGo b₀.id σ
  staleCall : ∀ d₀, σ₀.calls.get? d₀.id = some d₀ → CallRepo.stale (staleCutoff cfg now) d₀ →
    CallEnded d₀.id σ
  silentAgent : ∀ g₀ c, σ₀.agents.get? g₀.id = some g₀ →
    AgentRepo.heartbeatExpired (heartbeatCutoff cfg now) g₀ → ¬ MayFreeAgent cfg now σ₀ g₀ →
    g₀.currentCallId = some c → CallEnded c σ
  stuckAgent : ∀ g₀, σ₀.agents.get? g₀.id = some g₀ →
    AgentRepo.wrapUpExpired (wrapUpCutoff cfg now) none g₀ → AgentIdle g₀.id σ

/-- The limit of a sweep exceeds the number of rows. -/
structure LimitSuffices (cfg : Config) (σ : Store) : Prop where
  agents : (σ.agents.docs.length : Int) ≤ cfg.settings.RECOVERY_SWEEP_LIMIT
  borrowers : (σ.borrowers.docs.length : Int) ≤ cfg.settings.RECOVERY_SWEEP_LIMIT
  calls : (σ.calls.coll.docs.length : Int) ≤ cfg.settings.RECOVERY_SWEEP_LIMIT

/-- **A failure-free run of the sweeps deals with every row whose time is over.** One clause for
each sweep and each kind of row; the sweeps before and after do not undo it, which is what `Reaches`
carries along. -/
theorem covered_afterSweeps {envs : Nat → Env} (hsound : CallsSound σ.calls)
    (hlimit : LimitSuffices cfg σ) (henvs : ∀ n, ∀ f ∈ (envs n).fault, f.exn.isProviderError = true) :
    Covered cfg (envs 0).now σ (afterSweeps cfg envs σ) := by
  have hall : ∀ p ∈ sweeps cfg (envs 0).now cfg.settings.RECOVERY_SWEEP_LIMIT,
      Stays FailureFree (fun _ => False) cfg (envs 0).now σ p.2 fun _ => True :=
    stays_sweeps escapes_failureFree _
  -- what the loop over the sweeps reaches holds of the final store
  have hfinal : ∀ F G, F σ → Reaches cfg (envs 0).now σ F
      (runSweepsLoop (sweeps cfg (envs 0).now cfg.settings.RECOVERY_SWEEP_LIMIT) {}) G →
      G (afterSweeps cfg envs σ) := by
    intro F G hF h
    rw [afterSweeps_eq]
    obtain ⟨a, -, hG⟩ := run_of_wp (h σ ⟨.refl σ, hF⟩) (fun _ n => henvs n) 1
    exact hG.2
  unfold sweeps at hall hfinal
  -- what is left of the list after one sweep, after two, and so on
  have hrest₁ := fun p hp => hall p (List.mem_cons_of_mem _ hp)
  have hrest₂ := fun p hp => hrest₁ p (List.mem_cons_of_mem _ hp)
  have hrest₃ := fun p hp => hrest₂ p (List.mem_cons_of_mem _ hp)
  have hrest₄ := fun p hp => hrest₃ p (List.mem_cons_of_mem _ hp)
  have hrest₅ := fun p hp => hrest₄ p (List.mem_cons_of_mem _ hp)
  have h₁ := hall _ List.mem_cons_self
  have h₂ := hrest₁ _ List.mem_cons_self
  have h₃ := hrest₂ _ List.mem_cons_self
  have h₄ := hrest₃ _ List.mem_cons_self
  have h₅ := hrest₄ _ List.mem_cons_self
  have k₁ := h₁.reaches stable_true
  have k₂ := h₂.reaches stable_true
  have k₃ := h₃.reaches stable_true
  have k₄ := h₄.reaches stable_true
  refine ⟨fun g₀ hg₀ hexpired => ?_, fun g₀ c hg₀ hexpired hbound => ?_,
    fun b₀ hb₀ hexpired => ?_, fun d₀ hd₀ hstale => ?_,
    fun g₀ c hg₀ hexpired hkept hbound => ?_, fun g₀ hg₀ hexpired => ?_⟩
  · exact hfinal (fun _ => True) _ trivial (Reaches.ofFirst
      (reaches_agentIdle hg₀ hexpired hlimit.agents) (stable_agentIdle _) h₁ hrest₁ {})
  · exact hfinal (fun σ => σ.agents.get? g₀.id = some g₀) _ hg₀ (Reaches.ofFirst
      (reaches_callEnded_of_bound hsound hbound hexpired hlimit.agents) (stable_callEnded c)
      h₁ hrest₁ {})
  · exact hfinal (fun _ => True) _ trivial (.ofRest k₁ (.ofFirst
      (reaches_borrowerLetGo hb₀ hexpired hlimit.borrowers) (stable_borrowerLetGo _) h₂ hrest₂) {})
  · exact hfinal (fun _ => True) _ trivial (.ofRest k₁ (.ofRest k₂ (.ofFirst
      (reaches_callEnded_of_stale hsound hd₀ hstale hlimit.calls) (stable_callEnded _) h₃
      hrest₃)) {})
  · -- under a timeout that the agent meets, the first three sweeps are the same programs
    obtain ⟨timeout, hbeats⟩ := exists_not_silent cfg (envs 0).now g₀
    have hpatient : ∀ p ∈ sweeps (patient cfg timeout) (envs 0).now
        cfg.settings.RECOVERY_SWEEP_LIMIT,
        Stays FailureFree (fun _ => False) (patient cfg timeout) (envs 0).now σ p.2 fun _ => True :=
      stays_sweeps escapes_failureFree _
    unfold sweeps at hpatient
    rw [sweepExpiredAgentLeases_patient, sweepOrphanedCalls_patient] at hpatient
    have hpatient₁ := fun p hp => hpatient p (List.mem_cons_of_mem _ hp)
    have hpatient₂ := fun p hp => hpatient₁ p (List.mem_cons_of_mem _ hp)
    exact hfinal (Swept (patient cfg timeout) (envs 0).now σ) _ (.refl σ)
      (.ofRest (h₁.within (hpatient _ List.mem_cons_self))
        (.ofRest (h₂.within (hpatient₁ _ List.mem_cons_self))
        (.ofRest (h₃.within (hpatient₂ _ List.mem_cons_self)) (.ofFirst
          (reaches_callEnded_of_silent hsound hg₀ hbound hexpired hkept hbeats hlimit.agents)
          (stable_callEnded c) h₄ hrest₄))) {})
  · exact hfinal (fun _ => True) _ trivial (.ofRest k₁ (.ofRest k₂ (.ofRest k₃ (.ofRest k₄ (.ofFirst
      (reaches_agentIdle_of_wrapUp hg₀ hexpired hlimit.agents) (stable_agentIdle _) h₅
      hrest₅)))) {})

end RecoveryWorker

end SmartDialer
